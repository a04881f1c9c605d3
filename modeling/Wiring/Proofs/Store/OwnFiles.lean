import Mathlib.Data.List.Dedup
import Wiring.Proofs.Store.Histories

/-! Artifacts with names of their own. Each of them has an entry in the manifest, and where a run
found nothing to remove, each has its file when the run has finished.
-/

namespace Wiring.DirectoryStore

variable {base : List String} {artifacts : List Artifact} {store : DirectoryStore} {tree : FileTree}

/-- Where all names differ, each artifact is the last of its name. -/
theorem lastOfItsName_of_nodup (distinct : (artifacts.map Artifact.qualifiedName).Nodup)
    {artifact : Artifact}
    : LastOfItsName artifacts artifact ↔ artifact ∈ artifacts := by
  rw [lastOfItsName_iff, Ascending.mem_collectBy_of_nodup distinct]

/-- What is recorded are the names of the artifacts, each once. -/
theorem Records.names_perm (records : Records base artifacts (store, tree))
    : (store.current.artifacts.entries.map Prod.fst).Perm
        (artifacts.map Artifact.qualifiedName).dedup := by
  have once : (store.current.artifacts.entries.map Prod.fst).Nodup :=
    Ascending.nodup_map records.ascending
  refine (List.perm_ext_iff_of_nodup once (List.nodup_dedup _)).mpr fun name => ?_
  have kept
      : (∃ artifact, LastOfItsName artifacts artifact ∧ artifact.qualifiedName = name)
        ↔ ∃ artifact ∈ artifacts, artifact.qualifiedName = name := by
    simp only [lastOfItsName_iff]
    exact Ascending.exists_mem_collectBy
  rw [List.mem_dedup, List.mem_map, List.mem_map, ← kept]
  constructor
  · rintro ⟨⟨_, entry⟩, member, rfl⟩
    obtain ⟨artifact, isLast, sameName, _⟩ := (records.recorded _ _).mp member
    exact ⟨artifact, isLast, sameName⟩
  · rintro ⟨artifact, isLast, rfl⟩
    exact ⟨_, (records.recorded _ _).mpr ⟨artifact, isLast, rfl, rfl⟩, rfl⟩

/-- There is an entry for each artifact if and only if their names differ. -/
theorem Records.length_eq_iff (records : Records base artifacts (store, tree))
    : store.current.artifacts.entries.length = artifacts.length
      ↔ (artifacts.map Artifact.qualifiedName).Nodup := by
  have number := records.names_perm.length_eq
  rw [List.length_map] at number
  rw [number, ← List.dedup_eq_self]
  constructor
  · intro same
    refine (List.dedup_sublist _).eq_of_length ?_
    rw [same, List.length_map]
  · intro same
    rw [same, List.length_map]

/-- The entries are then those of the artifacts. -/
theorem Records.entries_perm (records : Records base artifacts (store, tree))
    (distinct : (artifacts.map Artifact.qualifiedName).Nodup)
    : store.current.artifacts.entries.Perm
        (artifacts.map fun artifact => (artifact.qualifiedName, .ofArtifact artifact)) := by
  refine (List.perm_ext_iff_of_nodup ?_ ?_).mpr fun ⟨name, entry⟩ => ?_
  · exact (Ascending.nodup_map records.ascending).of_map
  · refine List.Nodup.of_map Prod.fst ?_
    rw [List.map_map]
    exact distinct
  · rw [records.recorded, List.mem_map]
    simp only [lastOfItsName_of_nodup distinct, Prod.mk.injEq, eq_comm]

/-- The manifest has the entries of the artifacts, and each artifact a file of its own. -/
structure HoldsEach (root : FilePath) (manifest : Manifest) (tree : FileTree)
    (artifacts : List Artifact)
    : Prop where
  entries
    : manifest.artifacts.entries.Perm
        (artifacts.map fun artifact => (artifact.qualifiedName, .ofArtifact artifact))
  places
    : manifest.artifacts.entries.Pairwise fun recorded other =>
        tree.place (root.join recorded.2.path.text) ≠ tree.place (root.join other.2.path.text)
  contents
    : ∀ artifact ∈ artifacts,
        tree.readText (root.join artifact.relativePath.text) = .ok artifact.content

/-- So a run finishes whose artifacts have different names, where there was nothing to remove. Nothing
is stale, so nothing that was stored is removed.
-/
theorem Records.holdsEach_of_finish (records : Records base artifacts (store, tree))
    (distinct : (artifacts.map Artifact.qualifiedName).Nodup) (fresh : store.previous = {})
    {manifest : Manifest} (finished : (store.finish tree).result = .ok manifest)
    : HoldsEach store.root manifest (store.finish tree).state artifacts := by
  obtain rfl : manifest = store.current := (clears_of_finish finished).1
  have forth := (keepsDirectories_of_finish finished).1
  have entries := records.entries_perm distinct
  refine ⟨entries, ?_, ?_⟩
  · rw [entries.pairwise_iff fun apart => apart.symm, List.pairwise_map]
    refine (List.pairwise_map.mp distinct).imp_of_mem ?_
    intro first second member otherMember differs same
    have isLast := (lastOfItsName_of_nodup distinct).mpr member
    have otherLast := (lastOfItsName_of_nodup distinct).mpr otherMember
    simp only [ManifestEntry.path_ofArtifact] at same
    rw [((records.stored first isLast).1.mono forth).place_eq,
      ((records.stored second otherLast).1.mono forth).place_eq] at same
    exact records.apart first second isLast otherLast differs
      (List.append_cancel_left (Place.eq_of_holding same))
  · intro artifact member
    have isLast := (lastOfItsName_of_nodup distinct).mpr member
    rw [records.readText_of_finish finished isLast, if_neg]
    rintro ⟨recorded, among, _⟩
    rw [fresh] at among
    exact absurd among List.not_mem_nil

end Wiring.DirectoryStore
