import Wiring.FilePath
import Wiring.Text.Segments
import Wiring.Text.SnakeCase

/-! A generated source file: what it is called, where it goes, and which files it was made from. -/

namespace Wiring

/-- What is generated. -/
inductive ArtifactKind
  | factory
  | component
  deriving DecidableEq, Inhabited, Repr

/-- How a kind is written in a manifest. -/
def ArtifactKind.text : ArtifactKind → String
  | factory => "factory"
  | component => "component"

/-- What a generated file depends on. An isolating one depends on its sources alone; an aggregating
one has to be made again whenever any input changes.
-/
structure Origins where
  aggregating : Bool
  sources : List FilePath
  deriving DecidableEq, Inhabited, Repr

/-- A generated file before it is written. -/
structure Artifact where
  home : String
  name : String
  kind : ArtifactKind
  content : String
  origins : Origins
  deriving DecidableEq, Inhabited, Repr

namespace Artifact

/-- The name that an artifact is kept by. -/
def qualifiedName (artifact : Artifact) : String :=
  Segments.within artifact.home artifact.name

/-- The directories of a module: its segments, without the crate itself. -/
def directories (home : String) : List String :=
  (Segments.split home).filter fun segment => segment ≠ "" && segment ≠ "crate"

/-- `crate::net` and `NetworkClientFactory` go to `net/network_client_factory.rs`. -/
def relativePath (artifact : Artifact) : FilePath :=
  (FilePath.ofSegments (directories artifact.home)).join
    (SnakeCase.ofName artifact.name ++ ".rs")

end Artifact

end Wiring
