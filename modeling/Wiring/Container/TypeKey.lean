/-! The identity of a type at run time. -/

namespace Wiring

/-- The full name of a type, which no other type has. -/
structure TypeKey where
  name : String
  deriving DecidableEq, Inhabited, Repr

namespace TypeKey

/-- The key as it is shown when debugging. Names hold nothing that needs escaping. -/
def debugText (key : TypeKey) : String :=
  "TypeKey(\x22" ++ key.name ++ "\x22)"

end TypeKey

end Wiring
