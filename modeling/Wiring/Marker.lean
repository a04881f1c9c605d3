import Wiring.Source.Grammar.Language
import Wiring.Source.Lexer

/-! What the marker may stand on, as far as the marked item itself shows it. Whether that item is a
member of an implementation is not visible from here.
-/

namespace Wiring

/-- Why the marker refuses what it stands on. -/
inductive MarkerFault
  | hasArguments
  | notAFunction
  | takesSelf
  | isAsync
  | isGeneric
  | noOutput
  deriving DecidableEq, Inhabited, Repr

/-- How the marker words a refusal. -/
def MarkerFault.message : MarkerFault → String
  | hasArguments => "#[inject] takes no arguments"
  | notAFunction => "#[inject] can only be applied to constructor functions"
  | takesSelf => "#[inject] constructors cannot take `self`"
  | isAsync => "#[inject] constructors cannot be async"
  | isGeneric => "#[inject] constructors cannot be generic"
  | noOutput => "#[inject] constructors must return `Self`"

namespace Source

open Grammar

/-- A function with a body, attributes and visibility included: its signature. -/
def functionWithBody (nested : Nested) : Parser Signature := do
  discard (outerAttributes nested)
  discard visibility
  let (found, _, hasBody) ← functionForm nested false
  require hasBody
  return found

/-- The signature of the one function with a body that the tokens are. -/
def wholeFunction? (tokens : Tokens) : Option Signature :=
  (functionWithBody (languageFor tokens)).all? tokens

/-- The first reason, if any, why a function with this signature can never be a constructor. -/
def Signature.markerFault? (signature : Signature) : Option MarkerFault :=
  if signature.takesSelf then some .takesSelf
  else if signature.isAsync then some .isAsync
  else if signature.isGeneric then some .isGeneric
  else if signature.output.isNone then some .noOutput
  else none

/-- What is wrong with a marker that has the arguments and stands on the item. -/
def markerFault? (arguments item : Tokens) : Option MarkerFault :=
  if arguments.isEmpty then
    match wholeFunction? item with
    | some signature => signature.markerFault?
    | none => some .notAFunction
  else some .hasArguments

end Source

end Wiring
