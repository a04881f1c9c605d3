import Wiring.Text.SnakeCase

/-! Which characters snake case brings in: small letters and underscores. All others were in the
name before.
-/

namespace Wiring

namespace Unicode

/-- A code is in the ranges if it is in one of them. -/
theorem inRanges_iff {ranges : List (Nat × Nat)} {code : Nat}
    : inRanges ranges code = true ↔ ∃ range ∈ ranges, range.1 ≤ code ∧ code ≤ range.2 := by
  simp [inRanges]

/-- The letters of ASCII, by their codes. -/
theorem toNat_of_isAlpha {char : Char} (letter : char.isAlpha = true)
    : 65 ≤ char.toNat ∧ char.toNat ≤ 90 ∨ 97 ≤ char.toNat ∧ char.toNat ≤ 122 := by
  have letter
      : (decide ('A'.val ≤ char.val ∧ char.val ≤ 'Z'.val)
          || decide ('a'.val ≤ char.val) && decide (char.val ≤ 'z'.val)) = true :=
    letter
  simp only [Bool.or_eq_true, Bool.and_eq_true, decide_eq_true_eq, UInt32.le_iff_toNat_le]
    at letter
  exact letter

/-- Every stride leads to small letters or beyond them, and to characters throughout. -/
theorem loweringStrides_targets
    : ∀ stride ∈ loweringStrides,
        97 ≤ stride.2.2.2
        ∧ (stride.2.2.2 + (stride.2.1 - stride.1) < 0xd800
          ∨ 0xdfff < stride.2.2.2 ∧ stride.2.2.2 + (stride.2.1 - stride.1) < 0x110000) := by
  decide +kernel

/-- A valid code is that of its character. -/
theorem toNat_ofNat {code : Nat} (valid : code.isValidChar)
    : (Char.ofNat code).toNat = code := by
  rw [Char.ofNat, dif_pos valid]
  rfl

/-- Within ASCII, the lower-case form is the character itself or a small letter. -/
theorem eq_or_le_of_toLower
    : ∀ code < 128,
        (Char.ofNat code).toLower = Char.ofNat code ∨ 97 ≤ (Char.ofNat code).toLower.toNat := by
  decide

/-- A lower-case form is the character itself or stands above the capitals, by the ways to lower a
character: in ASCII, as the one letter with two lower-case forms, or by a stride of the table.
-/
theorem eq_or_le_of_mem_lowerCase {char lowered : Char} (member : lowered ∈ lowerCase char)
    : lowered = char ∨ 97 ≤ lowered.toNat := by
  unfold lowerCase at member
  split at member
  · rename_i ascii
    obtain rfl := List.mem_singleton.mp member
    have form := eq_or_le_of_toLower char.toNat (by omega)
    rwa [Char.ofNat_toNat] at form
  · split at member
    · have above : lowered = 'i' ∨ lowered = Char.ofNat 775 := by simpa using member
      rcases above with rfl | rfl <;> exact .inr (by decide)
    · split at member
      · rename_i first last step target found
        obtain rfl := List.mem_singleton.mp member
        obtain ⟨letters, valid⟩ :=
          loweringStrides_targets _ (List.mem_of_find?_eq_some found)
        have within := List.find?_some found
        simp only [Bool.and_eq_true, decide_eq_true_eq] at within letters valid
        have isChar : (target + (char.toNat - first)).isValidChar := by
          unfold Nat.isValidChar
          omega
        right
        rw [toNat_ofNat isChar]
        omega
      · exact .inl (List.mem_singleton.mp member)

end Unicode

namespace SnakeCase

open Unicode

/-- Snake case consists of underscores, characters of the name, and lower-case forms of them, by
induction on the characters.
-/
theorem eq_or_exists_of_mem_after {previous : Option Char} {chars : List Char} {char : Char}
    (member : char ∈ after previous chars)
    : char = '_' ∨ ∃ source ∈ chars, char = source ∨ char ∈ lowerCase source := by
  induction chars generalizing previous with
  | nil => simp [after] at member
  | cons first rest ih =>
      have later {previous : Option Char} (member : char ∈ after previous rest)
          : char = '_' ∨ ∃ source ∈ first :: rest, char = source ∨ char ∈ lowerCase source :=
        (ih member).imp_right fun ⟨source, among, form⟩ =>
          ⟨source, List.mem_cons_of_mem first among, form⟩
      unfold after at member
      split at member
      · simp only [List.append_assoc, List.mem_append] at member
        rcases member with mark | lowered | member
        · split at mark
          · exact .inl (List.mem_singleton.mp mark)
          · cases mark
        · exact .inr ⟨first, List.mem_cons_self, .inr lowered⟩
        · exact later member
      · rcases List.mem_cons.mp member with rfl | member
        · exact .inr ⟨char, List.mem_cons_self, .inl rfl⟩
        · exact later member

/-- A folded name has underscores, characters of the name, and their small forms. -/
theorem eq_or_exists_of_mem_ofName {name : String} {char : Char}
    (member : char ∈ (ofName name).toList)
    : char = '_' ∨ ∃ source ∈ name.toList, char = source ∨ char ∈ lowerCase source := by
  rw [ofName, String.toList_ofList] at member
  exact eq_or_exists_of_mem_after member

/-- Snake case brings in no character below the small letters but the underscore. -/
theorem mem_ofName {name : String} {char : Char} (member : char ∈ (ofName name).toList)
    : char = '_' ∨ char ∈ name.toList ∨ 97 ≤ char.toNat := by
  rcases eq_or_exists_of_mem_ofName member with mark | ⟨source, among, rfl | lowered⟩
  · exact .inl mark
  · exact .inr (.inl among)
  · rcases eq_or_le_of_mem_lowerCase lowered with rfl | small
    · exact .inr (.inl among)
    · exact .inr (.inr small)

/-- What is no capital stays where it is. -/
theorem mem_after_of_mem {previous : Option Char} {chars : List Char} {char : Char}
    (small : isUpper char = false) (member : char ∈ chars)
    : char ∈ after previous chars := by
  induction chars generalizing previous with
  | nil => simp at member
  | cons first rest ih =>
      unfold after
      rcases List.mem_cons.mp member with rfl | later
      · simp [small]
      · split
        · exact List.mem_append_right _ (ih later)
        · exact List.mem_cons_of_mem first (ih later)

/-- What is not upper case stays in the name. -/
theorem mem_ofName_of_mem {name : String} {char : Char} (small : isUpper char = false)
    (member : char ∈ name.toList)
    : char ∈ (ofName name).toList := by
  simpa [ofName] using mem_after_of_mem small member

end SnakeCase

end Wiring
