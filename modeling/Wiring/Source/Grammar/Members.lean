import Wiring.Source.Grammar.Parser
import Wiring.Source.Literal

/-! Names of fields: identifiers, and places. A place is printed in decimal digits, however it is
written.
-/

namespace Wiring.Source.Grammar

/-- The printed form of a place. -/
def placeToken (place : Nat) : Token :=
  .literal (toString place)

/-- The place of a field. -/
def fieldPlace : Parser Unit
  | ⟨.literal text :: rest, printed⟩ =>
      (Literal.fieldIndex? text.toList).map fun place => ((), ⟨rest, placeToken place :: printed⟩)
  | _ => none

/-- The name or place of a field; tells whether it is a name. -/
def member : Parser Bool := do
  if ← sees isName then
    discard identifier
    return true
  else
    fieldPlace
    return false

/-- Places with dots between them. -/
def placesOf : List (List Char) → Option Tokens
  | [] => some []
  | [last] => (Literal.fieldIndex? last).map fun place => [placeToken place]
  | first :: rest => do
      let place ← Literal.fieldIndex? first
      let others ← placesOf rest
      return placeToken place :: .mark '.' false :: others

/-- The parts of a text between dots. -/
def splitAtDots : List Char → List (List Char)
  | [] => [[]]
  | char :: rest =>
      match splitAtDots rest with
      | first :: others => if char = '.' then [] :: first :: others else (char :: first) :: others
      | [] => [[char]]

/-- Whether a number with a dot comes first, which behind a dot is several places. -/
def isDotted : Tokens → Bool
  | .literal text :: _ => isNumber text && text.toList.contains '.'
  | _ => false

/-- The places of a number with dots; tells whether its last character is a dot, behind which
another field is named.
-/
def dottedPlaces : Parser Bool
  | ⟨.literal text :: rest, printed⟩ => do
      let parts := splitAtDots text.toList
      let trailing := parts.getLast? = some []
      let places ← placesOf (if trailing then parts.dropLast else parts)
      let shown := places ++ (if trailing then [Token.mark '.' false] else [])
      return (trailing, ⟨rest, shown.reverse ++ printed⟩)
  | _ => none

end Wiring.Source.Grammar
