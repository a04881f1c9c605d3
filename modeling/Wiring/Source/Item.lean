import Wiring.SpelledPath
import Wiring.Source.Token

/-! What a source file declares, as far as wiring looks at it. Function bodies and expressions are
left out; everything that can carry an attribute is kept.
-/

namespace Wiring.Source

/-- The arguments of a path segment. An empty list of arguments is none. -/
inductive PathArguments
  | none
  /-- One argument, itself the path of a type without arguments. -/
  | lone (path : SpelledPath)
  | other
  deriving DecidableEq, Inhabited, Repr

/-- One segment of a path, with what it is applied to. -/
structure PathSegment where
  name : String
  arguments : PathArguments
  deriving DecidableEq, Inhabited, Repr

/-- The path of a type, arguments included. -/
structure TypePath where
  rooted : Bool
  segments : List PathSegment
  deriving DecidableEq, Inhabited, Repr

namespace TypePath

/-- The path without its arguments. -/
def spelled (path : TypePath) : SpelledPath :=
  ⟨path.rooted, path.segments.map PathSegment.name⟩

/-- Whether some segment is applied to arguments. -/
def hasArguments (path : TypePath) : Bool :=
  path.segments.any fun segment => segment.arguments ≠ .none

end TypePath

/-- A type as written: the path it is, if it is one, and its printed text. -/
structure TypeExpr where
  path? : Option TypePath
  text : String
  deriving DecidableEq, Inhabited, Repr

/-- What an attribute says behind its path. -/
inductive AttributeInput
  | none
  | group (tokens : List Token)
  | value
  deriving Inhabited, Repr

/-- An attribute, by its path and by what stands behind the path. -/
structure Attribute where
  rooted : Bool
  path : List String
  input : AttributeInput
  deriving Inhabited, Repr

/-- Whether the attribute's path is this one word. -/
def Attribute.isNamed (attr : Attribute) (name : String) : Bool :=
  !attr.rooted && attr.path = [name]

/-- A tree of a `use`. -/
inductive UseTree
  | inside (name : String) (tree : UseTree)
  | name (name : String)
  | rename (name newName : String)
  | glob
  | group (trees : List UseTree)
  deriving Inhabited, Repr

/-- A parameter other than a receiver; a pattern that is no name is `_`. -/
structure FunctionParameter where
  name : String
  type : TypeExpr
  deriving DecidableEq, Inhabited, Repr

/-- What a function says of itself in front of its body. -/
structure Signature where
  name : String
  line : Nat
  isAsync : Bool
  isGeneric : Bool
  takesSelf : Bool
  parameters : List FunctionParameter
  output : Option TypeExpr
  deriving DecidableEq, Inhabited, Repr

/-- What stands in the body of a trait or an implementation. -/
inductive Member
  | function (attributes : List Attribute) (signature : Signature)
  | other (attributes : List Attribute)
  deriving Inhabited, Repr

/-- The attributes of a member. -/
def Member.attributes : Member → List Attribute
  | function attributes _ => attributes
  | other attributes => attributes

/-- An `impl` block, by the type it is for and by its members. -/
structure ImplBlock where
  isGeneric : Bool
  ofTrait : Bool
  /-- The path of the type it is for, if that type is a path. -/
  owner? : Option TypePath
  members : List Member
  deriving Inhabited, Repr

/-- The ways to declare a type. -/
inductive TypeKind
  | struct
  | enumeration
  | union
  | typeAlias
  deriving DecidableEq, Inhabited, Repr

/-- An item of a file. -/
inductive Item
  | imports (attributes : List Attribute) (exported rooted : Bool) (tree : UseTree)
  | type (attributes : List Attribute) (kind : TypeKind) (name : String) (line : Nat)
  | trait (attributes : List Attribute) (name : String) (line : Nat) (members : List Member)
  | function (attributes : List Attribute) (signature : Signature)
  /-- A module whose items stand in the same file. -/
  | submodule (attributes : List Attribute) (name : String) (body : List Item)
  /-- A module whose items stand in a file of its own. -/
  | fileModule (attributes : List Attribute) (name : String)
  | implementation (attributes : List Attribute) (block : ImplBlock)
  /-- Anything else; nothing is declared by it. -/
  | other (attributes : List Attribute)
  deriving Inhabited, Repr

/-- The attributes of an item. -/
def Item.attributes : Item → List Attribute
  | imports attributes .. | type attributes .. | trait attributes .. | function attributes ..
  | submodule attributes .. | fileModule attributes .. | implementation attributes ..
  | other attributes => attributes

end Wiring.Source
