import Wiring.FilePath
import Wiring.Text.Utf8

/-! Files and directories, as a value. Relative and absolute paths both start at its top. Operations
that fail may have created directories on the way; they never change a file.
-/

namespace Wiring

/-- A file holds text, or bytes that are none. -/
inductive FileContent
  | text (text : String)
  | binary (bytes : List UInt8)
  deriving DecidableEq, Inhabited, Repr

/-- What a file of the given bytes holds. -/
def FileContent.ofBytes (bytes : List UInt8) : FileContent :=
  match String.fromUTF8? ⟨bytes.toArray⟩ with
  | some decoded => .text decoded
  | none => .binary bytes

/-- The content as text, whatever it holds. -/
def FileContent.shown : FileContent → String
  | text held => held
  | binary bytes => Utf8.decode bytes

/-- What stands at a place of the tree. -/
inductive FileNode
  | directory
  | file (content : FileContent)
  deriving DecidableEq, Inhabited, Repr

/-- Why something cannot be done with a file. That it is absent is told apart from all else. -/
inductive FileFault
  | absent
  | refused
  deriving DecidableEq, Inhabited, Repr

/-- Nodes by the names that lead to them; the top itself is a directory without a node. -/
structure FileTree where
  nodes : List (List String × FileNode) := []
  deriving DecidableEq, Inhabited, Repr

/-- Where a path leads. -/
inductive Place
  | node (names : List String) (node : FileNode)
  /-- To no node, but into a directory. -/
  | vacant (names : List String)
  /-- Into a directory that is not there. -/
  | lost
  /-- Nowhere: a file stands in the way, or a name is unusable. -/
  | blocked
  deriving DecidableEq, Inhabited, Repr

namespace FileTree

/-- What stands at the place with the given names. The root is a directory that no entry records. -/
def node? (tree : FileTree) (names : List String) : Option FileNode :=
  if names = [] then some .directory else tree.nodes.lookup names

/-- The tree with a node at a place, instead of what was there. -/
def set (tree : FileTree) (names : List String) (node : FileNode) : FileTree :=
  ⟨(names, node) :: tree.nodes.filter fun (other, _) => other ≠ names⟩

/-- The tree without what stands at a place. -/
def erase (tree : FileTree) (names : List String) : FileTree :=
  ⟨tree.nodes.filter fun (other, _) => other ≠ names⟩

/-- The longest name that a node can have, in bytes. -/
def nameLimit : Nat :=
  255

/-- The length, in bytes, that the text of a path stays below. -/
def pathLimit : Nat :=
  4096

/-- Whether a name is not too long for one entry of a directory. -/
def isUsableName (name : String) : Bool :=
  name.utf8ByteSize ≤ nameLimit

/-- Whether a path can be asked for at all. -/
def isUsablePath (path : FilePath) : Bool :=
  path.text.utf8ByteSize < pathLimit && !path.text.toList.contains '\x00'

/-- Follows steps that start in the directory at `names`. -/
def follow (tree : FileTree) (names : List String) : List PathStep → Place
  | [] => .node names .directory
  | .root :: rest => follow tree [] rest
  | .here :: rest => follow tree names rest
  | .up :: rest => follow tree names.dropLast rest
  | .name name :: rest =>
      if !isUsableName name then .blocked
      else
        match tree.node? (names ++ [name]) with
        | some .directory => follow tree (names ++ [name]) rest
        | some (.file content) =>
            if rest.isEmpty then .node (names ++ [name]) (.file content) else .blocked
        | none => if rest.isEmpty then .vacant (names ++ [name]) else .lost

/-- What a path leads to. -/
def place (tree : FileTree) (path : FilePath) : Place :=
  if path.text = "" then .lost
  else if !isUsablePath path then .blocked
  else
    match tree.follow [] path.steps with
    | .node names (.file content) =>
        if path.asksDirectory then .blocked else .node names (.file content)
    | place => place

/-- The text of the file at a path. -/
def readText (tree : FileTree) (path : FilePath) : Except FileFault String :=
  match tree.place path with
  | .node _ (.file (.text text)) => .ok text
  | .vacant _ | .lost => .error .absent
  | _ => .error .refused

/-- Whether there is a file at the path that holds exactly this text. -/
def holds (tree : FileTree) (path : FilePath) (text : String) : Bool :=
  match tree.readText path with
  | .ok held => held = text
  | .error _ => false

/-- Writes a file whose directory is there. -/
def write (tree : FileTree) (path : FilePath) (content : FileContent) : Except FileFault FileTree :=
  match tree.place path with
  | .node names (.file _) => .ok (tree.set names (.file content))
  | .vacant names =>
      if path.asksDirectory then .error .refused else .ok (tree.set names (.file content))
  | .lost => .error .absent
  | _ => .error .refused

/-- The tree without the file at a path, which has to be a file. -/
def removeFile (tree : FileTree) (path : FilePath) : Except FileFault FileTree :=
  match tree.place path with
  | .node names (.file _) => .ok (tree.erase names)
  | .vacant _ | .lost => .error .absent
  | _ => .error .refused

/-- Creates the directories that the steps lead through, and tells whether all of them are there
then.
-/
def makeDirectories (tree : FileTree) (names : List String) : List PathStep → FileTree × Bool
  | [] => (tree, true)
  | .root :: rest => makeDirectories tree [] rest
  | .here :: rest => makeDirectories tree names rest
  | .up :: rest => makeDirectories tree names.dropLast rest
  | .name name :: rest =>
      if !isUsableName name then (tree, false)
      else
        match tree.node? (names ++ [name]) with
        | some .directory => makeDirectories tree (names ++ [name]) rest
        | some (.file _) => (tree, false)
        | none =>
            makeDirectories (tree.set (names ++ [name]) .directory) (names ++ [name]) rest

/-- Makes sure that there is a directory at the path, and all those above it. -/
def ensureDirectory (tree : FileTree) (path : FilePath) : FileTree × Bool :=
  if path.text = "" then (tree, true)
  else if !isUsablePath path then (tree, false)
  else tree.makeDirectories [] path.steps

/-- Writes a file and creates the directories above it. -/
def put (tree : FileTree) (path : FilePath) (content : FileContent) : Except FileFault FileTree :=
  match path.parent? with
  | some parent => (tree.ensureDirectory parent).1.write path content
  | none => tree.write path content

/-- Removes a file, or a directory with all that is in it. -/
def removeAll (tree : FileTree) (path : FilePath) : FileTree :=
  match tree.place path with
  | .node names _ => ⟨tree.nodes.filter fun (other, _) => !names.isPrefixOf other⟩
  | _ => tree

/-- The order of two lists of names, by the first name in which they differ. -/
def namesBefore : List String → List String → Bool
  | _, [] => false
  | [], _ :: _ => true
  | left :: lefts, right :: rights => decide (left < right) || (left = right && namesBefore lefts rights)

/-- The nodes below a directory by their names from there on. A directory stands before what it
holds, and names of one directory are in ascending order.
-/
def below (tree : FileTree) (names : List String) : List (List String × FileNode) :=
  let found :=
    tree.nodes.filterMap fun (other, node) =>
      if names.isPrefixOf other && names ≠ other then some (other.drop names.length, node) else none
  found.mergeSort fun left right => !namesBefore right.1 left.1

/-- What is at the path and below it, each under the path as spelled; nothing when the path leads
nowhere.
-/
def listing? (tree : FileTree) (path : FilePath) : Option (List (FilePath × FileNode)) :=
  match tree.place path with
  | .node names .directory =>
      some
        ((path, .directory)
          :: (tree.below names).map fun (rest, node) => (rest.foldl FilePath.join path, node))
  | .node _ node => some [(path, node)]
  | _ => none

/-- Whether there is a directory at the path with nothing in it. -/
def isEmptyDirectory (tree : FileTree) (path : FilePath) : Bool :=
  match tree.place path with
  | .node names .directory => (tree.below names).isEmpty
  | _ => false

/-- What is below a directory, as it is shown: files with their content, and directories that hold
nothing with a slash behind their path.
-/
def shown (tree : FileTree) (path : FilePath) : List (String × Option String) :=
  ((tree.listing? path).getD []).tail.filterMap fun (path, node) =>
    match node with
    | .file content => some (path.text, some content.shown)
    | .directory => if tree.isEmptyDirectory path then some (path.text ++ "/", none) else none

end FileTree

end Wiring
