import Wiring.Text.Join

/-! Paths of files, kept as they were written. Two spellings are the same path when they have the
same components: repeated and trailing separators and inner dots do not count.
-/

namespace Wiring

/-- One step of a path. -/
inductive PathStep
  | root
  | here
  | up
  | name (text : String)
  deriving DecidableEq, Inhabited, Repr

namespace PathStep

/-- How a step is spelled. -/
def text : PathStep → String
  | root => "/"
  | here => "."
  | up => ".."
  | name text => text

/-- The place of a step's kind in the order of steps. -/
def rank : PathStep → Nat
  | root => 0
  | here => 1
  | up => 2
  | name _ => 3

/-- Names come after the other steps and are ordered by code point. -/
def before : PathStep → PathStep → Bool
  | name left, name right => decide (left < right)
  | left, right => decide (left.rank < right.rank)

end PathStep

/-- A path as it is spelled. Two spellings may be the same path; see `FilePath.same`. -/
structure FilePath where
  text : String
  deriving DecidableEq, Inhabited, Repr

namespace FilePath

/-- The pieces between slashes. -/
def splitSlashes : List Char → List (List Char)
  | [] => [[]]
  | '/' :: rest => [] :: splitSlashes rest
  | char :: rest =>
      match splitSlashes rest with
      | [] => [[char]]
      | head :: tail => (char :: head) :: tail

/-- The texts between the slashes of a path. -/
def pieces (path : FilePath) : List String :=
  (splitSlashes path.text.toList).map String.ofList

/-- The step of a piece that is not the first one. -/
def innerStep? (piece : String) : Option PathStep :=
  if piece = "" ∨ piece = "." then none
  else if piece = ".." then some .up
  else some (.name piece)

/-- An empty first piece is the root when a slash follows it; a dot counts in front only. -/
def steps (path : FilePath) : List PathStep :=
  match path.pieces with
  | [] => []
  | [""] => []
  | "" :: rest => .root :: rest.filterMap innerStep?
  | "." :: rest => .here :: rest.filterMap innerStep?
  | first :: rest => (first :: rest).filterMap innerStep?

/-- Whether the two spellings name one path. -/
def same (left right : FilePath) : Bool :=
  left.steps = right.steps

/-- The order of two lists of steps, by the first step in which they differ. -/
def stepsBefore : List PathStep → List PathStep → Bool
  | _, [] => false
  | [], _ :: _ => true
  | left :: lefts, right :: rights =>
      left.before right || (left = right && stepsBefore lefts rights)

/-- Paths are ordered step by step. -/
def before (left right : FilePath) : Bool :=
  stepsBefore left.steps right.steps

/-- Whether a path starts at the root. -/
def isAbsolute (path : FilePath) : Bool :=
  path.text.toList.head? = some '/'

/-- The path of `child` below `path`; an absolute child replaces it. -/
def join (path : FilePath) (child : String) : FilePath :=
  if (FilePath.mk child).isAbsolute then ⟨child⟩
  else if path.text = "" ∨ path.text.toList.getLast? = some '/' then ⟨path.text ++ child⟩
  else ⟨path.text ++ "/" ++ child⟩

/-- The relative path through the given names, joined one by one. -/
def ofSegments (segments : List String) : FilePath :=
  segments.foldl join ⟨""⟩

/-- The last step, if it is a name. -/
def fileName? (path : FilePath) : Option String :=
  match path.steps.getLast? with
  | some (.name text) => some text
  | _ => none

/-- Splits a file name at its last dot. A name whose only dot leads it has no extension. -/
def splitExtension (name : String) : String × Option String :=
  let reversed := name.toList.reverse
  let extension := reversed.takeWhile (· ≠ '.')
  match reversed.dropWhile (· ≠ '.') with
  | [] | [_] => (name, none)
  | _ :: stem => (String.ofList stem.reverse, some (String.ofList extension.reverse))

/-- The name of a path's last step, without the extension. -/
def stem? (path : FilePath) : Option String :=
  path.fileName?.map fun name => (splitExtension name).1

/-- The extension of a path's last step. -/
def extension? (path : FilePath) : Option String :=
  path.fileName?.bind fun name => (splitExtension name).2

/-- The steps above the last one; nothing for the empty path and for the root. -/
def parentSteps? (path : FilePath) : Option (List PathStep) :=
  match path.steps.getLast? with
  | none | some .root => none
  | some _ => some path.steps.dropLast

/-- Whether a piece between slashes leads nowhere. -/
def isSilent (piece : String) : Bool :=
  piece = "" || piece = "."

/-- Drops the pieces at the end that make no step; `pieces` are in reverse, the first piece of the
path last.
-/
def dropSilent : List String → List String
  | [] => []
  | [first] => [first]
  | piece :: rest => if isSilent piece then dropSilent rest else piece :: rest

/-- The parent as it is spelled in the path itself. -/
def parent? (path : FilePath) : Option FilePath :=
  path.parentSteps?.map fun _ =>
    match dropSilent path.pieces.reverse with
    | [] | [_] => ⟨""⟩
    | _ :: above =>
        match dropSilent above with
        | [""] => ⟨"/"⟩
        | kept => ⟨Text.joinWith "/" kept.reverse⟩

/-- What is left of the path's steps below `root`, if it lies there. -/
def stepsBelow? (root path : FilePath) : Option (List PathStep) :=
  if root.steps.isPrefixOf path.steps then some (path.steps.drop root.steps.length) else none

/-- Whether the spelling asks for a directory. -/
def asksDirectory (path : FilePath) : Bool :=
  match path.pieces.getLast? with
  | some piece => piece = "" || piece = "." || piece = ".."
  | none => false

end FilePath

end Wiring
