import Wiring.Event
import Wiring.Failure
import Wiring.Injectable
import Wiring.Marked

/-! Taking in the marked declarations of one round. Each gets a ruling, in order; a single invalid
one spoils the round, and then all of them are reported.
-/

namespace Wiring

/-- What is decided about a marked declaration. -/
inductive Ruling
  | invalid (diagnostic : Diagnostic)
  | deferred (marked : Marked)
  | accepted (injectable : Injectable)
  deriving DecidableEq, Repr

/-- What is wrong with the form of a declaration, whatever its types. -/
def Marked.fault? (marked : Marked) : Option Diagnostic :=
  let diagnostic (kind : DiagnosticKind) (explanation : String) : Option Diagnostic :=
    some ⟨kind, marked.location, marked.text, explanation⟩
  match marked.objection with
  | some objection => diagnostic .notAConstructor objection.message
  | none =>
      if marked.ownerIsGeneric then
        diagnostic .genericOwner "generic types cannot be injected"
      else
        marked.parameters.findSome? fun parameter =>
          match parameter.shape with
          | .shared _ => none
          | .unsupported written =>
              diagnostic .unsupportedParameter
                ("parameter `" ++ parameter.name ++ ": " ++ written
                  ++ "` must be an `Arc<T>` of a non-generic type")

namespace Ruling

/-- The complaint about a second constructor of a type, which names the first. -/
def duplicate (marked : Marked) (target : TypeName) (first : Injectable) : Diagnostic :=
  ⟨.duplicateBinding, marked.location, marked.text,
    target.qualified ++ " already has an injectable constructor `" ++ first.constructor ++ "` at "
      ++ first.location.text⟩

/-- The ruling on a candidate when the injectables in `taken` have been accepted before. -/
def on (taken : List Injectable) (candidate : Candidate) : Ruling :=
  let marked := candidate.marked
  match marked.fault? with
  | some diagnostic => .invalid diagnostic
  | none =>
      match candidate.owner, candidate.parameters with
      | some target, some parameters =>
          match taken.find? fun injectable => injectable.target = target with
          | some first => .invalid (duplicate marked target first)
          | none => .accepted ⟨target, marked.name, parameters, marked.location⟩
      | _, _ => .deferred marked

/-- The rulings on candidates in order. Each accepted injectable is taken for those that follow. -/
def all (taken : List Injectable) : List Candidate → List Ruling
  | [] => []
  | candidate :: rest =>
      match on taken candidate with
      | .accepted injectable => .accepted injectable :: all (taken ++ [injectable]) rest
      | ruling => ruling :: all taken rest

/-- The complaint that a ruling is. -/
def diagnostic? : Ruling → Option Diagnostic
  | invalid diagnostic => some diagnostic
  | _ => none

/-- The declaration that a ruling leaves for later. -/
def deferred? : Ruling → Option Marked
  | deferred marked => some marked
  | _ => none

/-- The injectable that a ruling accepts. -/
def accepted? : Ruling → Option Injectable
  | accepted injectable => some injectable
  | _ => none

/-- What a ruling tells. A complaint is not told; it ends the round. -/
def event? : Ruling → Option Event
  | invalid _ => none
  | deferred marked => some (.deferring marked.text marked.location)
  | accepted injectable =>
      some (.found injectable.target injectable.constructor injectable.arity)

end Ruling

/-- What a round takes in: new injectables, and the declarations left to a later round. -/
structure Intake where
  accepted : List Injectable
  deferred : List Marked
  deriving DecidableEq, Inhabited, Repr

namespace Intake

/-- The rulings of a round. Declarations with a processed key are passed over. -/
def rulings (processed : List String) (known : List Injectable) (candidates : List Candidate)
    : List Ruling :=
  Ruling.all known
    (candidates.filter fun candidate => !processed.contains candidate.marked.key)

/-- What a round's rulings tell, in the order of the declarations. -/
def events (rulings : List Ruling) : List Event :=
  rulings.filterMap Ruling.event?

/-- All complaints of a round, or else what it accepts and what it leaves for later. -/
def ofRulings (rulings : List Ruling) : Except (List Diagnostic) Intake :=
  match rulings.filterMap Ruling.diagnostic? with
  | [] => .ok ⟨rulings.filterMap Ruling.accepted?, rulings.filterMap Ruling.deferred?⟩
  | diagnostics => .error diagnostics

end Intake

end Wiring
