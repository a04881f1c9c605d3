import Wiring.Location
import Wiring.TypeName

/-! What is worth telling while wiring is generated or used: events, how much they matter, and their
wording.
-/

namespace Wiring

/-- How important an event is. -/
inductive Level
  | trace
  | debug
  | info
  | warn
  deriving DecidableEq, Inhabited, Repr

/-- How a level is printed. -/
def Level.text : Level → String
  | trace => "TRACE"
  | debug => "DEBUG"
  | info => "INFO"
  | warn => "WARN"

/-- What a run and a container tell while they work. -/
inductive Event
  | reading (file : FilePath) (home : String)
  | readBelow (files : Nat) (root : FilePath)
  | deferring (declaration : String) (location : Location)
  | found (target : TypeName) (constructor : String) (parameters : Nat)
  | emitted (artifact : String)
  | roundDone (round made left : Nat)
  | cycle (path : List TypeName)
  | leftToHost (types : List TypeName)
  | generated (component : String) (injectables rounds : Nat)
  | removedStale (file : FilePath)
  | leftUnchanged (file : FilePath)
  | wrote (file : FilePath)
  | stored (artifacts : Nat) (root : FilePath) (written unchanged : Nat)
  | bound (key : String)
  | tookBound (key : String)
  | constructing (key : String)
  | createdClient (address : String)
  deriving DecidableEq, Repr

namespace Event

/-- The level of an event. -/
def level : Event → Level
  | tookBound _ | constructing _ => .trace
  | reading .. | deferring .. | found .. | emitted _ | removedStale _ | leftUnchanged _ | wrote _
  | bound _ | createdClient _ => .debug
  | readBelow .. | roundDone .. | leftToHost _ | generated .. | stored .. => .info
  | cycle _ => .warn

/-- What is told of an event. -/
def message : Event → String
  | reading file home => "Scanning " ++ file.text ++ " as " ++ home
  | readBelow files root => "Scanning " ++ toString files ++ " files below " ++ root.text
  | deferring declaration location => "Deferring " ++ declaration ++ " at " ++ location.text
  | found target constructor parameters =>
      "Found injectable " ++ target.qualified ++ "::" ++ constructor ++ " with "
        ++ toString parameters ++ " parameters"
  | emitted artifact => "Emitted " ++ artifact
  | roundDone round made left =>
      "Round " ++ toString round ++ ": " ++ toString made ++ " factories emitted, "
        ++ toString left ++ " symbols deferred"
  | cycle path =>
      "Dependency cycle, injecting any of these will not terminate: "
        ++ Text.joinWith " -> " (path.map TypeName.qualified)
  | leftToHost types =>
      "Must be bound at runtime: " ++ Text.joinWith ", " (types.map TypeName.qualified)
  | generated component injectables rounds =>
      "Generated " ++ component ++ " with " ++ toString injectables ++ " injectables in "
        ++ toString rounds ++ " rounds"
  | removedStale file => "Removed stale artifact " ++ file.text
  | leftUnchanged file => "Unchanged artifact " ++ file.text
  | wrote file => "Wrote artifact " ++ file.text
  | stored artifacts root written unchanged =>
      toString artifacts ++ " artifacts in " ++ root.text ++ " (" ++ toString written
        ++ " written, " ++ toString unchanged ++ " unchanged)"
  | bound key => "Binding override: " ++ key
  | tookBound key => "Resolved " ++ key ++ " from overrides"
  | constructing key => "Constructing " ++ key
  | createdClient address => "Creating network client for " ++ address

/-- The line that an event is printed as. -/
def text (event : Event) : String :=
  event.level.text ++ " " ++ event.message

end Event

end Wiring
