import Wiring.Manifest
import Wiring.Proofs.Json.RoundTrip
import Wiring.Proofs.OrderedInsertion

/-! A manifest is read back from its text as it was: every name, path, kind and origin, whatever text
they hold.
-/

namespace Wiring

open Json

/-- Items that are read back one by one are read back together. -/
theorem mapM_map_eq_some {α β : Type} {write : α → β} {read : β → Option α}
    (inverse : ∀ item, read (write item) = some item) (items : List α)
    : (items.map write).mapM read = some items := by
  induction items with
  | nil => rfl
  | cons first rest ih =>
      rw [List.map_cons, List.mapM_cons, inverse, ih]
      rfl

namespace ArtifactKind

/-- A kind is read back from its name. -/
theorem ofJson?_text (kind : ArtifactKind)
    : ofJson? (.text (some kind.text)) = some kind := by
  cases kind <;> rfl

end ArtifactKind

namespace Origins

/-- Origins are faithful, as no text of theirs is broken. -/
theorem faithful_toJson (origins : Origins)
    : origins.toJson.Faithful := by
  have sources (paths : List FilePath)
      : FaithfulItems (paths.map fun source => .text source.text) := by
    induction paths with
    | nil => trivial
    | cons first rest ih => exact ⟨rfl, ih⟩
  exact ⟨rfl, trivial, rfl, sources origins.sources, trivial⟩

/-- Their fields are found by name. -/
theorem fields?_toJson (origins : Origins)
    : fields? ["aggregating", "sources"] origins.toJson
      = some [
          some (.bool origins.aggregating),
          some (.array (origins.sources.map fun source => .text source.text))
        ] :=
  rfl

/-- Origins are read back, each source by itself. -/
theorem ofJson?_toJson (origins : Origins)
    : ofJson? origins.toJson = some origins := by
  have texts
      : (origins.sources.map fun source => Json.text source.text).mapM asText?
        = some (origins.sources.map FilePath.text) := by
    rw [List.mapM_map]
    exact List.mapM_pure
  simp only [ofJson?, fields?_toJson, asBool?, asArray?, texts, Option.bind_eq_bind,
    Option.bind_some, List.map_map]
  simp [Function.comp_def]

end Origins

namespace ManifestEntry

/-- An entry is faithful, as its origins are. -/
theorem faithful_toJson (entry : ManifestEntry)
    : entry.toJson.Faithful :=
  ⟨rfl, rfl, rfl, rfl, rfl, entry.origins.faithful_toJson, trivial⟩

/-- Its fields are found by name. -/
theorem fields?_toJson (entry : ManifestEntry)
    : fields? ["path", "kind", "dependencies"] entry.toJson
      = some [
          some (.text entry.path.text),
          some (.text entry.kind.text),
          some entry.origins.toJson
        ] :=
  rfl

/-- An entry is read back, field by field. -/
theorem ofJson?_toJson (entry : ManifestEntry)
    : ofJson? entry.toJson = some entry := by
  simp only [ofJson?, fields?_toJson, asText?, ArtifactKind.ofJson?_text, Origins.ofJson?_toJson,
    Option.bind_eq_bind, Option.bind_some]

end ManifestEntry

namespace Manifest

/-- A manifest is faithful, by induction on its entries. -/
theorem faithful_toJson (manifest : Manifest)
    : manifest.toJson.Faithful := by
  have members (entries : List (String × ManifestEntry))
      : FaithfulMembers (entries.map fun entry => JsonMember.mk entry.1 entry.2.toJson) := by
    induction entries with
    | nil => trivial
    | cons entry rest ih => exact ⟨rfl, entry.2.faithful_toJson, ih⟩
  exact ⟨rfl, members manifest.artifacts.entries, trivial⟩

/-- Its entries are one object. -/
theorem fields?_toJson (manifest : Manifest)
    : fields? ["artifacts"] manifest.toJson
      = some [
          some (.object
            (manifest.artifacts.entries.map fun entry => .mk entry.1 entry.2.toJson))
        ] :=
  rfl

/-- How a member of the JSON form is read as an entry under its name. -/
def readMember? (member : JsonMember) : Option (String × ManifestEntry) := do
  let name ← member.key
  let entry ← ManifestEntry.ofJson? member.value
  some (name, entry)

/-- A member is read back as the entry that it stands for. -/
theorem readMember?_mk (entry : String × ManifestEntry)
    : readMember? (.mk entry.1 entry.2.toJson) = some entry := by
  simp [readMember?, JsonMember.key, JsonMember.value, ManifestEntry.ofJson?_toJson]

/-- A manifest whose entries ascend by name is read back from its text. -/
theorem ofText?_text {manifest : Manifest}
    (ascending : manifest.artifacts.entries.Pairwise (·.1 < ·.1))
    : ofText? manifest.text = some manifest := by
  have entries
      : entriesOfJson?
          (.object (manifest.artifacts.entries.map fun entry => .mk entry.1 entry.2.toJson))
        = some manifest.artifacts := by
    have members := mapM_map_eq_some readMember?_mk manifest.artifacts.entries
    unfold readMember? at members
    rw [entriesOfJson?, members, Option.map_some, Catalog.ofList_of_pairwise ascending]
  rw [ofText?, text, ofText?_pretty manifest.faithful_toJson, Option.bind_some, ofJson?,
    fields?_toJson]
  simp [entries]

end Manifest

end Wiring
