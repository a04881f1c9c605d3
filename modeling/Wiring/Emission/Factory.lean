import Wiring.Emission.Words

/-! The factory of an injectable: a type beside the target whose `create` hands its arguments to the
constructor. It resolves nothing itself.
-/

namespace Wiring.Emission

/-- One parameter of `create`: a shared instance of the type. -/
def factoryParameter? (name : String) (type : TypeName) : Option String :=
  (typePath? type).map fun path => name ++ " : :: std :: sync :: Arc < " ++ path ++ " >"

/-- The parameters of a factory's method, with the types to hand in. -/
def factoryParameters? (types : List TypeName) : Option (List String) :=
  ((argumentNames types.length).zip types).mapM fun (name, type) => factoryParameter? name type

/-- The code of a factory: its name, the target and its constructor, and the parameters. -/
def factoryCode (name target constructor : String) (parameters arguments : List String) : String :=
  "# [derive (Debug , Clone , Copy , Default)] pub struct " ++ name ++ " ; impl " ++ name
    ++ " \x7b pub fn create (" ++ commaSeparated parameters ++ ") -> " ++ target ++ " \x7b "
    ++ target ++ " :: " ++ constructor ++ " (" ++ commaSeparated arguments ++ ") \x7d \x7d"

/-- The factory of an injectable, if all its names are words of the language. -/
def factory? (injectable : Injectable) : Option Artifact := do
  let name ← word? injectable.factoryName
  let target ← typePath? injectable.target
  let constructor ← word? injectable.constructor
  let parameters ← factoryParameters? injectable.parameters
  some {
    home := injectable.target.home
    name := injectable.factoryName
    kind := .factory
    content :=
      render (factoryCode name target constructor parameters (argumentNames injectable.arity))
    origins := ⟨false, [injectable.location.file]⟩
  }

end Wiring.Emission
