import Wiring.Text.Segments

/-! The nominal identity of a type: the module it lives in and its simple name. Generic arguments
have no place in it.
-/

namespace Wiring

/-- A type by the module that declares it and by its name there. -/
structure TypeName where
  home : String
  name : String
  deriving DecidableEq, Inhabited, Repr

namespace TypeName

/-- Reads `a::b::Name`, after any leading `::`, at its last separator. Text without a separator, or
with nothing on one side of the last one, names no type.
-/
def parse? (text : String) : Option TypeName :=
  match Segments.splitLast? (Segments.dropLeading text) with
  | some (home, name) => if home = "" ∨ name = "" then none else some ⟨home, name⟩
  | none => none

/-- The path of a type from the root of the crate. -/
def qualified (type : TypeName) : String :=
  Segments.within type.home type.name

/-- Whether the type is declared in the crate that is being generated for. -/
def isLocal (type : TypeName) : Bool :=
  type.home = "crate" || "crate::".isPrefixOf type.home

/-- Modules are compared first, then names, each by code point. -/
def before (left right : TypeName) : Bool :=
  decide (left.home < right.home)
    || (left.home = right.home && decide (left.name < right.name))

instance : LT TypeName where
  lt left right := left.before right = true

instance (left right : TypeName) : Decidable (left < right) :=
  inferInstanceAs (Decidable (left.before right = true))

/-- The order in which listings show types: no later one before an earlier one. -/
def notAfter (left right : TypeName) : Bool :=
  !right.before left

end TypeName

end Wiring
