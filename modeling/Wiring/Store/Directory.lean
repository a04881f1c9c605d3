import Wiring.FileTree
import Wiring.Manifest
import Wiring.Store.Basic

/-! A store that writes artifacts as files below a directory. A file whose content is right already
is left alone. Finishing removes the files of the previous run that this one did not write again,
and records this run in a manifest.
-/

namespace Wiring

/-- A store that writes files below a directory and keeps a manifest of them. -/
structure DirectoryStore where
  root : FilePath
  /-- What the previous run recorded. -/
  previous : Manifest
  current : Manifest := {}
  written : Nat := 0
  unchanged : Nat := 0
  deriving DecidableEq, Inhabited, Repr

namespace DirectoryStore

/-- The name of the manifest's file. -/
def manifestName : String :=
  "tinydi-manifest.json"

/-- Where the manifest of a directory is. -/
def manifestPath (root : FilePath) : FilePath :=
  root.join manifestName

/-- The manifest at a path, if there is a file. -/
def loadManifest (tree : FileTree) (path : FilePath) : Except Failure (Option Manifest) :=
  match tree.readText path with
  | .ok text =>
      match Manifest.ofText? text with
      | some manifest => .ok (some manifest)
      | none => .error .manifest
  | .error .absent => .ok none
  | .error .refused => .error (.inputOutput path)

/-- Opens a store below a directory, which is created if need be. -/
def openAt (root : FilePath) (tree : FileTree) : Reply FileTree DirectoryStore :=
  match tree.ensureDirectory root with
  | (tree, false) => .failed tree (.inputOutput root)
  | (tree, true) =>
      match loadManifest tree (manifestPath root) with
      | .ok previous => .done tree { root, previous := previous.getD {} }
      | .error failure => .failed tree failure

/-- An artifact under another name that was written to the same file. -/
def clash? (store : DirectoryStore) (artifact : Artifact) : Option Failure :=
  (store.current.artifacts.entries.find? fun (name, entry) =>
      entry.path.same artifact.relativePath && name ≠ artifact.qualifiedName).map
    fun (name, _) => .clash artifact.relativePath name artifact.qualifiedName

/-- Notes an artifact for the manifest of this run. -/
def record (store : DirectoryStore) (artifact : Artifact) : DirectoryStore :=
  { store with
    current :=
      ⟨store.current.artifacts.insert artifact.qualifiedName (ManifestEntry.ofArtifact artifact)⟩ }

/-- Writes the file of an artifact whose directory is there. -/
def writeFile (store : DirectoryStore) (tree : FileTree) (path : FilePath) (artifact : Artifact)
    : Reply (DirectoryStore × FileTree) Unit :=
  if tree.holds path artifact.content then
    .telling [.leftUnchanged path]
      (.done (({ store with unchanged := store.unchanged + 1 }).record artifact, tree) ())
  else
    match tree.write path (.text artifact.content) with
    | .ok tree =>
        .telling [.wrote path]
          (.done (({ store with written := store.written + 1 }).record artifact, tree) ())
    | .error _ => .failed (store, tree) (.inputOutput path)

/-- Writes an artifact to its file, unless another one of this run has that file. -/
def write : Writer (DirectoryStore × FileTree) :=
  fun (store, tree) artifact =>
    match store.clash? artifact with
    | some failure => .failed (store, tree) failure
    | none =>
        let path := store.root.join artifact.relativePath.text
        match path.parent? with
        | none => store.writeFile tree path artifact
        | some parent =>
            match tree.ensureDirectory parent with
            | (tree, true) => store.writeFile tree path artifact
            | (tree, false) => .failed (store, tree) (.inputOutput parent)

/-- What the previous run recorded and this one did not. -/
def stale (store : DirectoryStore) : List ManifestEntry :=
  (store.previous.artifacts.entries.filter fun (name, _) =>
    !store.current.artifacts.contains name).map (·.2)

/-- Removes files below the root; one that is gone already is passed over. -/
def removeEach (root : FilePath) : FileTree → List ManifestEntry → Reply FileTree Unit
  | tree, [] => .done tree ()
  | tree, entry :: rest =>
      let path := root.join entry.path.text
      match tree.removeFile path with
      | .ok tree => (removeEach root tree rest).telling [.removedStale path]
      | .error .absent => removeEach root tree rest
      | .error .refused => .failed tree (.inputOutput path)

/-- Ends the run and answers the manifest that was written. -/
def finish (store : DirectoryStore) (tree : FileTree) : Reply FileTree Manifest :=
  (removeEach store.root tree store.stale).andThen fun tree _ =>
    match tree.write (manifestPath store.root) (.text store.current.text) with
    | .ok tree => .done tree store.current
    | .error _ => .failed tree (.inputOutput (manifestPath store.root))

end DirectoryStore

end Wiring
