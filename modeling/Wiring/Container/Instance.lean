import Wiring.Container.TypeKey

/-! Instances: objects with an identity of their own, holding the objects they were made from. -/

namespace Wiring

/-- A value that was made, with its identity and the values it was made from. -/
inductive Instance
  | mk (id : Nat) (type : TypeKey) (label : Option String) (parts : List Instance)
  deriving Inhabited, Repr

namespace Instance

/-- The identity of an instance. -/
def id : Instance → Nat
  | mk id _ _ _ => id

/-- The type that an instance is of. -/
def type : Instance → TypeKey
  | mk _ type _ _ => type

/-- The label that an instance was made with. -/
def label : Instance → Option String
  | mk _ _ label _ => label

/-- The objects it was made from, in the order of the parameters. -/
def parts : Instance → List Instance
  | mk _ _ _ parts => parts

end Instance

end Wiring
