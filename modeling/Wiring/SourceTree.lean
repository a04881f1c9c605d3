import Wiring.FileTree
import Wiring.Index.Add
import Wiring.Reply

/-! Source files below a directory: which module each of them is, and adding them to an index. -/

namespace Wiring

/-- File names that stand for the module of their directory. -/
def directoryModules : List String :=
  ["lib", "main", "mod"]

namespace FilePath

/-- The steps of a path below the root of its crate; all of them when it does not lie there. -/
def stepsFrom (root path : FilePath) : List PathStep :=
  (stepsBelow? root path).getD path.steps

/-- The stem of the file that the steps lead to. -/
def stemOfSteps? (steps : List PathStep) : Option String :=
  match steps.getLast? with
  | some (.name name) => some (splitExtension name).1
  | _ => none

/-- The steps above the last one, as segments of a module. -/
def segmentsAbove (steps : List PathStep) : List String :=
  if steps.getLast? = some .root then [] else steps.dropLast.map PathStep.text

/-- The module of a source file: `lib.rs` is the crate, `net.rs` and `net/mod.rs` are its module
`net`.
-/
def moduleBelow (root path : FilePath) : String :=
  let steps := stepsFrom root path
  let last :=
    match stemOfSteps? steps with
    | some stem => if directoryModules.contains stem then [] else [stem]
    | none => []
  Segments.join ("crate" :: segmentsAbove steps ++ last)

/-- Whether a file is read. -/
def isSource (path : FilePath) : Bool :=
  path.extension? = some "rs"

end FilePath

namespace SourceFile

/-- Reads a file of the crate below `root`. -/
def read (tree : FileTree) (root path : FilePath) : Except Failure SourceFile :=
  match tree.readText path with
  | .ok content => .ok ⟨path, root.moduleBelow path, content⟩
  | .error _ => .error (.inputOutput path)

end SourceFile

namespace FileTree

/-- The source files at a path and below it, directory by directory in ascending order. -/
def sources? (tree : FileTree) (root : FilePath) : Option (List FilePath) :=
  (tree.listing? root).map fun listing =>
    listing.filterMap fun (path, node) =>
      match node with
      | .file _ => if path.isSource then some path else none
      | .directory => none

end FileTree

namespace Index

/-- Adds a source file and tells of it. -/
def take (index : Index) (source : SourceFile) : Reply Index Unit :=
  match index.add source with
  | .ok index => .telling [.reading source.path source.home] (.done index ())
  | .error failure => .failed index failure

/-- A file by the characters of its content: what cannot be read adds nothing. -/
theorem state_take_ofList (index : Index) (path : FilePath) (home : String) (chars : List Char)
    : (index.take ⟨path, home, String.ofList chars⟩).state
      = (Source.Item.ofChars? chars).elim index (index.addParsed path home) := by
  unfold take add
  rw [Source.Item.ofText?_ofList]
  cases Source.Item.ofChars? chars <;> rfl

/-- Adds source files in order, up to the first failure. -/
def takeEach (index : Index) : List SourceFile → Reply Index Unit
  | [] => .done index ()
  | first :: rest => (index.take first).andThen fun index _ => takeEach index rest

/-- Reads and adds files in order, up to the first failure. -/
def readEach (tree : FileTree) (root : FilePath) (index : Index) : List FilePath → Reply Index Unit
  | [] => .done index ()
  | path :: rest =>
      match SourceFile.read tree root path with
      | .error failure => .failed index failure
      | .ok source => (index.take source).andThen fun index _ => readEach tree root index rest

/-- Adds all source files below a directory and answers their number. -/
def takeBelow (tree : FileTree) (root : FilePath) (index : Index) : Reply Index Nat :=
  match tree.sources? root with
  | none => .failed index (.inputOutput root)
  | some paths => (readEach tree root index paths).map fun _ => paths.length

end Index

end Wiring
