import Wiring.Proofs.OrderedInsertion
import Wiring.Proofs.Text.ByteOrder

/-! Types and their qualified names. A type that was read from a text has that text as its qualified
name, so names tell types apart. The order of types is that of their qualified names except for types
in modules one of whose paths begins with the other, and there only if what the longer path goes on
with comes before the separator and the name.
-/

namespace Wiring

open Segments Text

namespace TypeName

variable {left right : TypeName} {text other : String}

/-- A type is spelled as the text that it was read from, without separators in front. -/
theorem qualified_eq_dropLeading (read : parse? text = some left)
    : left.qualified = dropLeading text := by
  unfold parse? at read
  split at read
  · rename_i home name parts
    split at read
    · cases read
    · obtain rfl := Option.some.inj read
      exact (eq_within_of_splitLast? parts).symm
  · cases read

/-- Types that were read from texts are equal if and only if their qualified names are. -/
theorem eq_iff_qualified_eq (read : parse? text = some left) (otherRead : parse? other = some right)
    : left = right ↔ left.qualified = right.qualified := by
  refine ⟨congrArg qualified, fun same => ?_⟩
  rw [qualified_eq_dropLeading read, qualified_eq_dropLeading otherRead] at same
  have sameType : parse? text = parse? other := by
    unfold parse?
    rw [same]
  exact Option.some.inj (read.symm.trans (sameType.trans otherRead))

/-- The module of the right type goes on where that of the left one ends, and its qualified name comes
first nevertheless.
-/
def Overtakes (right left : TypeName) : Prop :=
  ∃ rest,
    rest ≠ ""
    ∧ right.home = left.home ++ rest
    ∧ rest ++ "::" ++ right.name < "::" ++ left.name

/-- These are the types that are not in the order of their qualified names. -/
theorem overtakes_iff
    : right.Overtakes left ↔ left < right ∧ right.qualified < left.qualified := by
  have spelled (type : TypeName) : type.qualified = type.home ++ ("::" ++ type.name) :=
    String.append_assoc
  constructor
  · rintro ⟨rest, some, home, overtakes⟩
    refine ⟨lt_iff.mpr (.inl ?_), ?_⟩
    · have below : "" < rest := by
        change [] < rest.toList
        cases chars : rest.toList with
        | nil => exact absurd (String.toList_inj.mp chars) some
        | cons => exact .nil
      rw [home]
      simpa using (append_lt_append_iff left.home).mpr below
    · rw [spelled, spelled, home, String.append_assoc, append_lt_append_iff, ← String.append_assoc]
      exact overtakes
  · rintro ⟨less, overtakes⟩
    rcases lt_iff.mp less with homes | ⟨sameHome, names⟩
    · by_cases begins : left.home.toList <+: right.home.toList
      · obtain ⟨chars, whole⟩ := begins
        have home : right.home = left.home ++ String.ofList chars := by
          apply String.toList_inj.mp
          simp [whole]
        refine ⟨String.ofList chars, ?_, home, ?_⟩
        · intro empty
          rw [home, empty, String.append_empty] at homes
          exact String.lt_irrefl _ homes
        · rw [spelled, spelled, home, String.append_assoc, append_lt_append_iff,
            ← String.append_assoc] at overtakes
          exact overtakes
      · rw [spelled, spelled] at overtakes
        exact absurd overtakes (String.lt_asymm (append_lt_append homes begins _ _))
    · rw [spelled, spelled, sameHome, append_lt_append_iff, append_lt_append_iff] at overtakes
      exact absurd overtakes (String.lt_asymm names)

end TypeName

end Wiring
