import Wiring.Proofs.Store.AbandonedRuns

/-! Reading a manifest back. What a run records is a matter of the artifacts that it took and of their
order alone, and the file that it leaves is read as just that, whatever text the names, the paths and
the sources hold.
-/

namespace Wiring.DirectoryStore

variable {root : FilePath} {start after : FileTree} {state : DirectoryStore × FileTree}
  {artifacts : List Artifact} {manifest : Manifest}

-----------------------------------------------------------------------------------------
-- The record of artifacts
-----------------------------------------------------------------------------------------

/-- One more artifact is one more insertion. -/
theorem recording_append_singleton (artifacts : List Artifact) (artifact : Artifact)
    : recording (artifacts ++ [artifact])
      = ⟨(recording artifacts).artifacts.insert artifact.qualifiedName (.ofArtifact artifact)⟩ := by
  simp [recording, Catalog.ofList]

/-- Records ascend by name, by induction from the last artifact. -/
theorem pairwise_recording (artifacts : List Artifact)
    : (recording artifacts).artifacts.entries.Pairwise (·.1 < ·.1) := by
  induction artifacts using List.reverseRecOn with
  | nil => exact .nil
  | append_singleton artifacts artifact ih =>
      rw [recording_append_singleton, Catalog.insert, Catalog.insertInto_eq_insertBy]
      exact Ascending.pairwise_insertBy _ ih

/-- A name is recorded with the last artifact under it, by induction from the last artifact. -/
theorem get?_recording_eq_some_iff {name : String} {entry : ManifestEntry}
    : (recording artifacts).artifacts.get? name = some entry
      ↔ ∃ artifact,
          LastOfItsName artifacts artifact
          ∧ artifact.qualifiedName = name
          ∧ entry = .ofArtifact artifact := by
  induction artifacts using List.reverseRecOn with
  | nil => simp [recording, Catalog.ofList, Catalog.get?, LastOfItsName]
  | append_singleton artifacts artifact ih =>
      simp only [recording_append_singleton, Catalog.get?_insert, lastOfItsName_append_singleton]
      split
      · rename_i same
        constructor
        · intro found
          exact ⟨artifact, .inl rfl, same.symm, (Option.some.inj found).symm⟩
        · rintro ⟨other, rfl | ⟨_, differs⟩, named, rfl⟩
          · rfl
          · exact absurd (named.trans same) differs
      · rename_i differs
        rw [ih]
        constructor
        · rintro ⟨other, last, rfl, rfl⟩
          exact ⟨other, .inr ⟨last, differs⟩, rfl, rfl⟩
        · rintro ⟨other, rfl | ⟨last, _⟩, named, rfl⟩
          · exact absurd named.symm differs
          · exact ⟨other, last, named, rfl⟩

/-- A store has recorded what it has taken, and nothing of what it refused, by induction on the way to
its state.
-/
theorem Reached.current_eq (reached : Reached root start artifacts state)
    : state.1.current = recording artifacts := by
  induction reached with
  | opened opened =>
      obtain ⟨_, _, _, _, rfl⟩ := openAt_eq_ok opened
      rfl
  | @taken artifacts state artifact _ taken ih =>
      obtain ⟨_, _, _, inserted, _⟩ := files_of_write taken
      have current := congrArg Manifest.mk inserted
      rw [ih] at current
      exact current.trans (recording_append_singleton artifacts artifact).symm
  | refused _ refused ih => rwa [(write_of_error refused).1]
  | broken _ _ ih => exact ih

-----------------------------------------------------------------------------------------
-- The file of a run
-----------------------------------------------------------------------------------------

/-- A completed run records its artifacts, whether it wrote them or found them written. -/
theorem Completed.manifest_eq (completed : Completed root start artifacts manifest after)
    : manifest = recording artifacts := by
  obtain ⟨store, tree, reached, finished, _⟩ := completed
  exact (clears_of_finish finished).1.trans reached.current_eq

/-- The file of a run that completes is read as the manifest that the run answered. It lists, under
ascending names, the last artifact that was taken under each name, with its path, its kind and its
sources.
-/
theorem Completed.loadManifest_eq (completed : Completed root start artifacts manifest after)
    : loadManifest after (manifestPath root) = .ok (some manifest)
      ∧ manifest.artifacts.names.Pairwise (· < ·)
      ∧ ∀ name entry,
          manifest.artifacts.get? name = some entry
          ↔ ∃ artifact,
              LastOfItsName artifacts artifact
              ∧ artifact.qualifiedName = name
              ∧ entry = ⟨artifact.relativePath, artifact.kind, artifact.origins⟩ := by
  have read := completed.readText_eq
  obtain rfl := completed.manifest_eq
  have ascending := pairwise_recording artifacts
  refine ⟨?_, List.pairwise_map.mpr ascending, fun name entry => get?_recording_eq_some_iff⟩
  simp only [loadManifest, read, Manifest.ofText?_text ascending]

/-- A factory whose texts have to be escaped or are not ASCII. -/
def awkwardFactory : Artifact where
  home := "crate::a\"b\\c"
  name := "Žlutý\u0001\n😀"
  kind := .factory
  content := ""
  origins := ⟨false, [⟨"src/\t\"quoted\".rs"⟩, ⟨"𐀀/\u007f\\"⟩]⟩

/-- A component without a module and without sources. -/
def awkwardComponent : Artifact where
  home := ""
  name := "漢字"
  kind := .component
  content := ""
  origins := ⟨true, []⟩

/-- After a factory whose name is full of characters that need escapes. -/
def awkwardState : DirectoryStore × FileTree :=
  (write (storeOfOut, (openAt ⟨"out"⟩ {}).state) awkwardFactory).state

/-- After a component beside it. -/
def awkwardEnd : DirectoryStore × FileTree :=
  (write awkwardState awkwardComponent).state

/-- What the run comes to, in one go. -/
theorem results_of_awkward
    : (write (storeOfOut, (openAt ⟨"out"⟩ {}).state) awkwardFactory).result.toOption = some ()
      ∧ (write awkwardState awkwardComponent).result.toOption = some ()
      ∧ (awkwardEnd.1.finish awkwardEnd.2).result.toOption
        = some (recording [awkwardFactory, awkwardComponent])
      ∧ awkwardFactory.relativePath = ⟨"a\"b\\c/žlutý\u0001\n😀.rs"⟩ := by
  decide +kernel

/-- Witness: quotes, backslashes, controls and characters beyond the basic plane are read back. -/
theorem Completed.loadManifest_eq_awkward
    : ∃ manifest after,
        Completed ⟨"out"⟩ {} [awkwardFactory, awkwardComponent] manifest after
        ∧ loadManifest after (manifestPath ⟨"out"⟩) = .ok (some manifest)
        ∧ manifest.artifacts.get? "crate::a\"b\\c::Žlutý\u0001\n😀"
          = some ⟨⟨"a\"b\\c/žlutý\u0001\n😀.rs"⟩, .factory, awkwardFactory.origins⟩ := by
  obtain ⟨first, second, finished, path⟩ := results_of_awkward
  have taken : Reached ⟨"out"⟩ {} [awkwardFactory] awkwardState :=
    .taken (.opened openAt_out) (eq_ok_of_toOption_eq_some first)
  have both : Reached ⟨"out"⟩ {} [awkwardFactory, awkwardComponent] awkwardEnd :=
    .taken taken (eq_ok_of_toOption_eq_some second)
  have completed := both.completed (eq_ok_of_toOption_eq_some finished)
  obtain ⟨read, _, entries⟩ := completed.loadManifest_eq
  have last : LastOfItsName [awkwardFactory, awkwardComponent] awkwardFactory :=
    ⟨[], [awkwardComponent], rfl, by decide⟩
  exact ⟨_, _, completed, read, (entries _ _).mpr ⟨awkwardFactory, last, rfl, by rw [path]; rfl⟩⟩

end Wiring.DirectoryStore
