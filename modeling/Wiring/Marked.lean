import Wiring.Location
import Wiring.SpelledPath
import Wiring.TypeName

/-! Declarations that carry the marker. -/

namespace Wiring

/-- Why a marked declaration is no constructor. -/
inductive Objection
  | notAFunction (what : String)
  | traitMember
  | ownerNotNominal
  | takesSelf
  | isAsync
  | isGeneric
  | wrongOutput
  | stated (reason : String)
  deriving DecidableEq, Inhabited, Repr

/-- How a reason against a declaration is worded. -/
def Objection.message : Objection → String
  | notAFunction what => what ++ " declarations cannot be injectable constructors"
  | traitMember => "trait impl methods cannot be injectable constructors"
  | ownerNotNominal => "owning type is not a nominal type"
  | takesSelf => "constructors cannot take `self`"
  | isAsync => "constructors cannot be async"
  | isGeneric => "constructors cannot have generic parameters"
  | wrongOutput => "constructors must return `Self`"
  | stated reason => reason

/-- What a parameter asks for, as far as it can be supplied. -/
inductive ParameterShape
  /-- A shared instance of the type at a plain path. -/
  | shared (path : SpelledPath)
  | unsupported (written : String)
  deriving DecidableEq, Inhabited, Repr

/-- A parameter of a constructor. -/
structure Parameter where
  name : String
  shape : ParameterShape
  deriving DecidableEq, Inhabited, Repr

/-- A declaration that carries the marker. -/
structure Marked where
  location : Location
  /-- The module it was found in. -/
  home : String
  /-- The number of the lexical scope it was found in. -/
  scope : Nat
  owner : Option SpelledPath
  ownerIsGeneric : Bool
  name : String
  objection : Option Objection
  parameters : List Parameter
  deriving DecidableEq, Inhabited, Repr

namespace Marked

/-- The declaration as it is called in messages. -/
def text (marked : Marked) : String :=
  match marked.owner with
  | some owner => owner.text ++ "::" ++ marked.name
  | none => marked.home ++ "::" ++ marked.name

/-- What identifies the declaration from round to round. -/
def key (marked : Marked) : String :=
  marked.location.text ++ "#" ++ marked.text

end Marked

/-- A marked declaration as one round sees it: with the types it mentions, as far as they can be
qualified by then.
-/
structure Candidate where
  marked : Marked
  owner : Option TypeName
  parameters : Option (List TypeName)
  deriving DecidableEq, Inhabited, Repr

/-- Whether both the owner and all parameters are known types. -/
def Candidate.isResolved (candidate : Candidate) : Bool :=
  candidate.owner.isSome && candidate.parameters.isSome

end Wiring
