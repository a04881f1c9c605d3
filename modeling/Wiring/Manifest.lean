import Wiring.Artifact
import Wiring.Catalog
import Wiring.Json.Printer
import Wiring.Json.Reader

/-! The record of the artifacts of one run, under their qualified names, and its JSON form. -/

namespace Wiring

/-- What the manifest records of one artifact: where it is, what it is and what it was made from. -/
structure ManifestEntry where
  path : FilePath
  kind : ArtifactKind
  origins : Origins
  deriving DecidableEq, Inhabited, Repr

/-- The record a completed run leaves beside its files, by the qualified names of the artifacts. -/
structure Manifest where
  artifacts : Catalog ManifestEntry := {}
  deriving DecidableEq, Inhabited, Repr

/-- The entry that records an artifact. -/
def ManifestEntry.ofArtifact (artifact : Artifact) : ManifestEntry :=
  ⟨artifact.relativePath, artifact.kind, artifact.origins⟩

/-- The entry of an artifact names the file that the artifact is written to. -/
@[simp]
theorem ManifestEntry.path_ofArtifact (artifact : Artifact)
    : (ofArtifact artifact).path = artifact.relativePath := by
  rw [ofArtifact]

/-- The kind that is written so in a manifest. -/
def ArtifactKind.ofText? : String → Option ArtifactKind
  | "factory" => some .factory
  | "component" => some .component
  | _ => none

/-- A kind is its text, or an object with that text as its one key and nothing under it. -/
def ArtifactKind.ofJson? : Json → Option ArtifactKind
  | .text (some text) => ofText? text
  | .object [.mk (some text) .null] => ofText? text
  | _ => none

namespace Origins

/-- How origins are written. -/
def toJson (origins : Origins) : Json :=
  .object [
    .mk "aggregating" (.bool origins.aggregating),
    .mk "sources" (.array (origins.sources.map fun source => .text source.text))
  ]

/-- The origins that are written so, if the value has both fields of the right kinds. -/
def ofJson? (json : Json) : Option Origins :=
  match Json.fields? ["aggregating", "sources"] json with
  | some [some aggregating, some sources] => do
      let aggregating ← aggregating.asBool?
      let sources ← sources.asArray?
      let sources ← sources.mapM Json.asText?
      some ⟨aggregating, sources.map FilePath.mk⟩
  | _ => none

end Origins

namespace ManifestEntry

/-- How an entry is written. -/
def toJson (entry : ManifestEntry) : Json :=
  .object [
    .mk "path" (.text entry.path.text),
    .mk "kind" (.text entry.kind.text),
    .mk "dependencies" entry.origins.toJson
  ]

/-- The entry that is written so, if the value has the three fields of the right kinds. -/
def ofJson? (json : Json) : Option ManifestEntry :=
  match Json.fields? ["path", "kind", "dependencies"] json with
  | some [some path, some kind, some origins] => do
      let path ← path.asText?
      let kind ← ArtifactKind.ofJson? kind
      let origins ← Origins.ofJson? origins
      some ⟨⟨path⟩, kind, origins⟩
  | _ => none

end ManifestEntry

namespace Manifest

/-- How a manifest is written. -/
def toJson (manifest : Manifest) : Json :=
  .object [
    .mk "artifacts"
      (.object
        (manifest.artifacts.entries.map fun (name, entry) => JsonMember.mk name entry.toJson))
  ]

/-- The entries of the one field, as long as every member of it is one. -/
def entriesOfJson? : Json → Option (Catalog ManifestEntry)
  | .object members =>
      (members.mapM fun (member : JsonMember) => do
        let name ← member.key
        let entry ← ManifestEntry.ofJson? member.value
        some (name, entry)).map Catalog.ofList
  | _ => none

/-- The manifest that is written so. -/
def ofJson? (json : Json) : Option Manifest :=
  match Json.fields? ["artifacts"] json with
  | some [some artifacts] => (entriesOfJson? artifacts).map Manifest.mk
  | _ => none

/-- The text of a manifest's file. -/
def text (manifest : Manifest) : String :=
  Json.pretty manifest.toJson

/-- The manifest that a text is read as. -/
def ofText? (text : String) : Option Manifest :=
  (Json.ofText? text).bind ofJson?

end Manifest

end Wiring
