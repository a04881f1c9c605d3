import Wiring.Proofs.Text.SnakeCase
import Wiring.Source.Identifier

/-! Snake case keeps to the characters of identifiers: the lower-case form of such a character consists
of such characters.
-/

namespace Wiring

namespace Unicode

/-- The ranges of the characters above ASCII that may stand in identifiers. -/
def nameRanges : List (Nat × Nat) :=
  startRanges ++ continueRanges

/-- What continues a name: letters, digits, underscores, and other characters in the ranges of names. -/
theorem isContinue_iff {char : Char}
    : isContinue char = true
      ↔ char.isAlpha = true ∨ char.isDigit = true ∨ char = '_'
        ∨ 127 < char.toNat ∧ inRanges nameRanges char.toNat = true := by
  simp only [isContinue, isStart, nameRanges, inRanges, List.any_append, Bool.or_eq_true,
    Bool.and_eq_true, decide_eq_true_eq]
  grind

/-- Every stride leads into one range of names or to one small letter, or no name holds a character of
it, as a run through the tables finds.
-/
theorem loweringStrides_names
    : ∀ stride ∈ loweringStrides,
        (127 < stride.2.2.2
            ∧ ∃ range ∈ nameRanges,
                range.1 ≤ stride.2.2.2 ∧ stride.2.2.2 + (stride.2.1 - stride.1) ≤ range.2)
          ∨ (stride.1 = stride.2.1 ∧ (Char.ofNat stride.2.2.2).isAlpha = true)
          ∨ ∀ range ∈ nameRanges, range.2 < stride.1 ∨ stride.2.1 < range.1 := by
  -- The tables are long, and Boolean comparisons of numbers are the fast way through them.
  have checked
      : (loweringStrides.all fun stride =>
          (Nat.blt 127 stride.2.2.2
              && nameRanges.any fun range =>
                  Nat.ble range.1 stride.2.2.2
                    && Nat.ble (stride.2.2.2 + (stride.2.1 - stride.1)) range.2)
            || (Nat.beq stride.1 stride.2.1 && (Char.ofNat stride.2.2.2).isAlpha
              || nameRanges.all fun range =>
                  Nat.blt range.2 stride.1 || Nat.blt stride.2.1 range.1)) = true := by
    decide +kernel
  simpa only [List.all_eq_true, List.any_eq_true, Bool.or_eq_true, Bool.and_eq_true, Nat.ble_eq,
    Nat.blt_eq, Nat.beq_eq] using checked

/-- Letters do. -/
theorem isContinue_of_isAlpha {char : Char} (letter : char.isAlpha = true)
    : isContinue char = true :=
  isContinue_iff.mpr (.inl letter)

/-- Above ASCII, a character of names stands in one of the ranges. -/
theorem exists_range_of_isContinue {char : Char} (above : 127 < char.toNat)
    (continues : isContinue char = true)
    : ∃ range ∈ nameRanges, range.1 ≤ char.toNat ∧ char.toNat ≤ range.2 := by
  rcases isContinue_iff.mp continues with letter | digit | rfl | ⟨_, inside⟩
  · have codes := toNat_of_isAlpha letter
    omega
  · simp only [Char.isDigit, Bool.and_eq_true, decide_eq_true_eq, UInt32.le_iff_toNat_le,
      ge_iff_le] at digit
    have code : char.toNat = char.val.toNat := rfl
    have last : '9'.val.toNat = 57 := rfl
    omega
  · exact absurd above (by decide)
  · exact inRanges_iff.mp inside

/-- Within ASCII the lower-case form of a character of names is one again. -/
theorem isContinue_toLower
    : ∀ code < 128,
        isContinue (Char.ofNat code) = true → isContinue (Char.ofNat code).toLower = true := by
  decide +kernel

/-- The lower-case form of a character of names consists of such characters, by the ways to lower a
character; a stride that holds a character of names leads among them.
-/
theorem isContinue_of_mem_lowerCase {char lowered : Char} (continues : isContinue char = true)
    (member : lowered ∈ lowerCase char)
    : isContinue lowered = true := by
  unfold lowerCase at member
  split at member
  · rename_i ascii
    obtain rfl := List.mem_singleton.mp member
    rw [← Char.ofNat_toNat char] at continues ⊢
    exact isContinue_toLower char.toNat (by omega) continues
  · rename_i above
    split at member
    · have forms : lowered = 'i' ∨ lowered = Char.ofNat 775 := by simpa using member
      rcases forms with rfl | rfl <;> decide +kernel
    · split at member
      · rename_i first last step target found
        obtain rfl := List.mem_singleton.mp member
        have stride := List.mem_of_find?_eq_some found
        have inside := List.find?_some found
        simp only [Bool.and_eq_true, decide_eq_true_eq] at inside
        rcases loweringStrides_names _ stride with ⟨high, range, among, within⟩ | ⟨alone, letter⟩ | apart
        · have code : (Char.ofNat (target + (char.toNat - first))).toNat
              = target + (char.toNat - first) := by
            refine toNat_ofNat ?_
            have valid := (loweringStrides_targets _ stride).2
            unfold Nat.isValidChar
            dsimp only at valid
            omega
          refine isContinue_iff.mpr (.inr (.inr (.inr ?_)))
          rw [code]
          dsimp only at high within
          exact ⟨by omega, inRanges_iff.mpr ⟨range, among, by omega, by omega⟩⟩
        · dsimp only at alone letter
          have same : char.toNat - first = 0 := by omega
          rw [same, Nat.add_zero]
          exact isContinue_of_isAlpha letter
        · obtain ⟨range, among, lower, upper⟩ := exists_range_of_isContinue (by omega) continues
          have outside := apart range among
          dsimp only at outside
          omega
      · rw [List.mem_singleton.mp member]
        exact continues

end Unicode

namespace SnakeCase

open Unicode

/-- A folded name consists of characters that continue names, since small forms of such characters do
so too.
-/
theorem isContinue_of_mem_ofName {name : String}
    (continues : ∀ char ∈ name.toList, isContinue char = true)
    : ∀ char ∈ (ofName name).toList, isContinue char = true := by
  intro char member
  rcases eq_or_exists_of_mem_ofName member with rfl | ⟨source, among, rfl | lowered⟩
  · decide
  · exact continues char among
  · exact isContinue_of_mem_lowerCase (continues source among) lowered

end SnakeCase

end Wiring
