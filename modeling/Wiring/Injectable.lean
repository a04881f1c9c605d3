import Wiring.Location
import Wiring.TypeName

/-! An injectable type: the constructor that makes it, and what that constructor needs, in the order
of its parameters.
-/

namespace Wiring

/-- A constructor that was accepted. -/
structure Injectable where
  target : TypeName
  constructor : String
  parameters : List TypeName
  location : Location
  deriving DecidableEq, Inhabited, Repr

namespace Injectable

/-- The factory stands beside the type it makes. -/
def factoryName (injectable : Injectable) : String :=
  injectable.target.name ++ "Factory"

/-- How many parameters a constructor takes. -/
def arity (injectable : Injectable) : Nat :=
  injectable.parameters.length

/-- Adds an injectable to a list that ascends by target, in place of one with the same target. -/
def insertInto (injectable : Injectable) : List Injectable → List Injectable
  | [] => [injectable]
  | first :: rest =>
      if injectable.target = first.target then injectable :: rest
      else if injectable.target < first.target then injectable :: first :: rest
      else first :: insertInto injectable rest

/-- The injectables, ascending by target; of those with one target the last counts. -/
def collect (injectables : List Injectable) : List Injectable :=
  injectables.foldl (fun collected injectable => insertInto injectable collected) []

end Injectable

end Wiring
