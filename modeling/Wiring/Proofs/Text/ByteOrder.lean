import Wiring.Text.Join

/-! The order of texts is that of their bytes. Code points are compared as the sequences of bytes that
encode them, since no such sequence begins another one; so texts may be compared by code points or by
bytes.
-/

namespace Wiring.Text

/-- The bytes of a text in UTF-8. -/
def bytes (text : String) : List UInt8 :=
  text.toUTF8.data.toList

/-- The bytes of a text are those of its characters, in order. -/
theorem bytes_eq (text : String)
    : bytes text = text.toList.flatMap String.utf8EncodeChar := by
  rw [bytes, String.toUTF8, ← String.utf8Encode_toList, List.utf8Encode, List.toList_data_toByteArray]

-----------------------------------------------------------------------------------------
-- Numbers in bytes
-----------------------------------------------------------------------------------------

/-- Numbers up to the bound are spelled in ascending order, whatever follows them, and each begins with
a byte between the limits.
-/
structure Ascends (low high bound : Nat) (spell : Nat → List UInt8) : Prop where
  leads
    : ∀ number ≤ bound,
        ∃ lead tail, spell number = lead :: tail ∧ low ≤ lead.toNat ∧ lead.toNat < high
  less
    : ∀ left right,
        left < right → right ≤ bound → ∀ more rest, spell left ++ more < spell right ++ rest

variable {low middle start high bound last : Nat} {spell other : Nat → List UInt8}

/-- A single byte ascends with its number, as long as that fits. -/
theorem ascends_byte {byte : Nat → UInt8} (fits : low + bound < high)
    (value : ∀ number ≤ bound, (byte number).toNat = low + number)
    : Ascends low high bound fun number => [byte number] where
  leads number inside := by
    have value := value number inside
    exact ⟨byte number, [], rfl, by omega, by omega⟩
  less left right less inside more rest := by
    have below := value left (by omega)
    have above := value right inside
    exact .rel (UInt8.lt_iff_toNat_lt.mpr (by omega))

/-- A byte that continues a sequence has six bits of the number. -/
def continuation (number : Nat) : UInt8 :=
  UInt8.ofNat (number % 64 + 128)

/-- One more byte extends the numbers by six bits. -/
theorem Ascends.continued (ascends : Ascends low high bound spell)
    : Ascends low high (64 * bound + 63) fun number =>
        spell (number / 64) ++ [continuation number] where
  leads number inside := by
    obtain ⟨lead, tail, spelled, above, below⟩ := ascends.leads (number / 64) (by omega)
    exact ⟨lead, tail ++ [continuation number], by rw [spelled, List.cons_append], above, below⟩
  less left right less inside more rest := by
    rw [List.append_assoc, List.append_assoc]
    by_cases front : left / 64 < right / 64
    · exact ascends.less _ _ front (by omega) _ _
    · obtain same : left / 64 = right / 64 := by omega
      rw [same]
      refine List.append_left_lt (.rel (UInt8.lt_iff_toNat_lt.mpr ?_))
      simp only [continuation, UInt8.toNat_ofNat']
      omega

/-- Larger numbers may be spelled in another way that begins with larger bytes. Numbers on both sides
of the bound are told apart by their first bytes.
-/
theorem Ascends.branch (first : Ascends low middle bound spell)
    (second : Ascends start high last other) (apart : middle ≤ start) (more : start ≤ high)
    : Ascends low high last fun number => if number ≤ bound then spell number else other number where
  leads number inside := by
    split
    · rename_i small
      obtain ⟨lead, tail, spelled, above, below⟩ := first.leads number small
      exact ⟨lead, tail, spelled, above, by omega⟩
    · obtain ⟨lead, tail, spelled, above, below⟩ := second.leads number inside
      obtain ⟨least, _, _, lowest, less⟩ := first.leads 0 (Nat.zero_le bound)
      exact ⟨lead, tail, spelled, by omega, below⟩
  less left right less inside more rest := by
    by_cases rightSmall : right ≤ bound
    · have leftSmall : left ≤ bound := by omega
      simp only [leftSmall, rightSmall, if_true]
      exact first.less left right less rightSmall more rest
    · by_cases leftSmall : left ≤ bound
      · -- The first bytes decide.
        obtain ⟨lead, tail, spelled, _, below⟩ := first.leads left leftSmall
        obtain ⟨otherLead, otherTail, otherSpelled, above, _⟩ := second.leads right inside
        simp only [leftSmall, rightSmall, if_true, if_false, spelled, otherSpelled]
        exact .rel (UInt8.lt_iff_toNat_lt.mpr (by omega))
      · simp only [leftSmall, rightSmall, if_false]
        exact second.less left right less inside more rest

-----------------------------------------------------------------------------------------
-- Characters
-----------------------------------------------------------------------------------------

/-- How code points are spelled: in one byte, or behind a first byte in one more, two, or three. -/
def encode (point : Nat) : List UInt8 :=
  if point ≤ 0x7f then [UInt8.ofNat point]
  else if point ≤ 0x7ff then [UInt8.ofNat (point / 64 % 32 + 192)] ++ [continuation point]
  else if point ≤ 0xffff then
    [UInt8.ofNat (point / 64 / 64 % 16 + 224)] ++ [continuation (point / 64)]
      ++ [continuation point]
  else
    [UInt8.ofNat (point / 64 / 64 / 64 % 8 + 240)] ++ [continuation (point / 64 / 64)]
      ++ [continuation (point / 64)] ++ [continuation point]

/-- A character is encoded by its code. -/
theorem utf8EncodeChar_eq (char : Char)
    : String.utf8EncodeChar char = encode char.val.toNat := by
  simp [String.utf8EncodeChar, encode, continuation, Nat.div_div_eq_div_mul]

/-- Codes ascend with their bytes: first bytes tell the four lengths apart, and for one length the
bytes are digits.
-/
theorem ascends_encode : Ascends 0 248 (64 * (64 * (64 * 7 + 63) + 63) + 63) encode := by
  have one : Ascends 0 128 127 fun number => [UInt8.ofNat number] := by
    refine ascends_byte (by decide) fun number inside => ?_
    rw [UInt8.toNat_ofNat']
    omega
  have lead (low bound : Nat) (fits : low + bound < 256)
      : Ascends low (low + bound + 1) bound fun number =>
          [UInt8.ofNat (number % (bound + 1) + low)] := by
    refine ascends_byte (Nat.lt_succ_self _) fun number inside => ?_
    rw [UInt8.toNat_ofNat', Nat.mod_eq_of_lt (by omega : number < bound + 1)]
    omega
  have two := (lead 192 31 (by decide)).continued
  have three := (lead 224 15 (by decide)).continued.continued
  have four := (lead 240 7 (by decide)).continued.continued.continued
  exact one.branch (two.branch (three.branch four (by decide) (by decide)) (by decide) (by decide))
    (by decide) (by decide)

/-- A smaller character has smaller bytes, whatever follows either. -/
theorem utf8EncodeChar_append_lt {left right : Char} (less : left < right) (more rest : List UInt8)
    : String.utf8EncodeChar left ++ more < String.utf8EncodeChar right ++ rest := by
  have inside : right.val.toNat < 0x110000 := by
    have valid := right.valid
    simp only [UInt32.isValidChar, Nat.isValidChar] at valid
    omega
  have less : left.val.toNat < right.val.toNat := less
  rw [utf8EncodeChar_eq, utf8EncodeChar_eq]
  exact ascends_encode.less _ _ less (by omega) more rest

-----------------------------------------------------------------------------------------
-- Texts
-----------------------------------------------------------------------------------------

/-- So the order of texts is that of their bytes, by induction on how the texts differ. -/
theorem flatMap_lt_flatMap {left right : List Char} (less : left < right)
    : left.flatMap String.utf8EncodeChar < right.flatMap String.utf8EncodeChar := by
  induction less with
  | @nil char rest =>
      rw [List.flatMap_nil, List.flatMap_cons]
      obtain ⟨first, others, spelled⟩ :=
        List.exists_cons_of_ne_nil (String.utf8EncodeChar_ne_nil (c := char))
      rw [spelled]
      exact .nil
  | rel less => exact utf8EncodeChar_append_lt less _ _
  | cons _ ih => exact List.append_left_lt ih

/-- Texts are in the order of their bytes. -/
theorem bytes_lt_iff {left right : String}
    : bytes left < bytes right ↔ left < right := by
  rw [bytes_eq, bytes_eq]
  constructor
  · intro less
    by_cases below : left < right
    · exact below
    · by_cases above : right < left
      · exact absurd less (List.lt_asymm (flatMap_lt_flatMap above))
      · obtain rfl := String.le_antisymm (String.not_lt.mp above) (String.not_lt.mp below)
        exact absurd less (List.lt_irrefl _)
  · exact flatMap_lt_flatMap

-----------------------------------------------------------------------------------------
-- Beginnings
-----------------------------------------------------------------------------------------

/-- What both texts begin with makes no difference to their order. -/
theorem append_lt_append_iff (front : String) {left right : String}
    : front ++ left < front ++ right ↔ left < right := by
  change (front ++ left).toList < (front ++ right).toList ↔ left.toList < right.toList
  rw [String.toList_append, String.toList_append]
  induction front.toList with
  | nil => rfl
  | cons char rest ih => rwa [List.cons_append, List.cons_append, List.cons_lt_cons_self]

/-- Texts that differ before the first one ends are in their order, whatever follows them. -/
theorem append_lt_append {left right : String} (less : left < right)
    (differ : ¬ left.toList <+: right.toList) (more rest : String)
    : left ++ more < right ++ rest := by
  change (left ++ more).toList < (right ++ rest).toList
  rw [String.toList_append, String.toList_append]
  have less : List.Lex (· < ·) left.toList right.toList := less
  generalize left.toList = lefts at less differ ⊢
  generalize right.toList = rights at less differ ⊢
  induction less with
  | nil => exact absurd List.nil_prefix differ
  | rel less => exact .rel less
  | cons _ ih => exact .cons (ih fun begins => differ ((List.prefix_cons_inj _).mpr begins))

end Wiring.Text
