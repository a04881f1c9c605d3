import Wiring.Proofs.Replies
import Wiring.Proofs.Store.ReadBack

/-! Files that are called like a manifest. Artifacts go to source files, and so does every path that a
run records. So neither writing artifacts nor removing what an earlier run recorded touches a file that
is called like a manifest; only a run that finishes writes one.
-/

namespace Wiring.DirectoryStore

open FileTree

variable {root : FilePath} {before middle after tree : FileTree} {names : List String}
  {store : DirectoryStore} {artifacts : List Artifact} {failure : Failure}

/-- A source file is not called like a manifest. -/
theorem ne_manifestName_of_source {stem : String} (source : names.getLast? = some (stem ++ ".rs"))
    : names.getLast? ≠ some manifestName := by
  intro named
  have ends : (stem ++ ".rs").toList.getLast? = some 's' := by simp
  rw [Option.some.inj (source.symm.trans named)] at ends
  exact absurd ends (by decide)

/-- No file that is called like a manifest was created, changed or removed, nor any directory removed. -/
structure SparesManifests (before after : FileTree) : Prop where
  files
    : ∀ names content,
        names.getLast? = some manifestName
        → (after.node? names = some (.file content) ↔ before.node? names = some (.file content))
  directories : before.KeepsDirectories after

namespace SparesManifests

/-- No change spares manifests. -/
theorem refl (tree : FileTree) : SparesManifests tree tree :=
  ⟨fun _ _ _ => .rfl, .refl tree⟩

/-- Changes that spare manifests compose, in both parts. -/
theorem trans (first : SparesManifests before middle) (second : SparesManifests middle after)
    : SparesManifests before after where
  files names content last := (second.files names content last).trans (first.files names content last)
  directories := first.directories.trans second.directories

/-- New directories leave all files alone. -/
theorem of_addsDirectories (more : before.AddsDirectories after) : SparesManifests before after where
  files names content _ := ⟨more.files names content, more.kept names _⟩
  directories := more.kept.keepsDirectories

/-- A place whose name is that of a source file may be altered. -/
theorem of_alters {node : Option FileNode} {stem : String} (alters : before.Alters after names node)
    (last : names.getLast? = some (stem ++ ".rs"))
    : SparesManifests before after where
  files others content named := by
    rw [alters.elsewhere]
    rintro rfl
    exact ne_manifestName_of_source last named
  directories := alters.keepsDirectories

/-- What is read as a manifest stays to be read. -/
theorem readText_eq (spares : SparesManifests before after) {text : String}
    (read : before.readText (manifestPath root) = .ok text)
    : after.readText (manifestPath root) = .ok text := by
  obtain ⟨names, addresses, held⟩ := readText_eq_ok_iff.mp read
  have ownName : (FilePath.mk manifestName).steps = [manifestName].map .name :=
    isSegment_manifestName.steps_eq
  have steps : (manifestPath root).steps = root.steps ++ [PathStep.name manifestName] := by
    rw [manifestPath, FilePath.steps_join root (FilePath.isPlain_of_steps ownName), ownName]
    rfl
  have last := addresses.leads.getLast?_eq steps
  exact readText_eq_ok_iff.mpr
    ⟨names, addresses.mono spares.directories, (spares.files names _ last).mpr held⟩

end SparesManifests

-----------------------------------------------------------------------------------------
-- Writing and removing
-----------------------------------------------------------------------------------------

/-- A write spares manifests: no artifact ends as a manifest does, and refusals only add directories. -/
theorem sparesManifests_write (state : DirectoryStore × FileTree) (artifact : Artifact)
    : SparesManifests state.2 (write state artifact).state.2 := by
  obtain ⟨store, tree⟩ := state
  cases result : (write (store, tree) artifact).result with
  | error failure => exact .of_addsDirectories (write_of_error result).2
  | ok =>
      obtain ⟨middle, names, more, addresses, alters⟩ := exists_alters_of_write result
      obtain ⟨above, stem, steps⟩ := artifact.exists_steps_join store.root
      exact (SparesManifests.of_addsDirectories more).trans
        (.of_alters alters (addresses.leads.getLast?_eq steps))

/-- Removing the files of artifacts spares manifests, even where it stops early. -/
theorem sparesManifests_removeEach (root : FilePath) (tree : FileTree) {entries : List ManifestEntry}
    (made : ∀ entry ∈ entries, ∃ artifact : Artifact, entry.path = artifact.relativePath)
    : SparesManifests tree (removeEach root tree entries).state := by
  obtain ⟨removed, early, clears⟩ := exists_clears_removeEach root tree entries
  refine ⟨fun names content last => ?_, clears.directories⟩
  rw [clears.kept names]
  intro path member addresses
  obtain ⟨entry, among, rfl⟩ := List.mem_map.mp member
  obtain ⟨artifact, same⟩ := made entry (early.subset among)
  obtain ⟨above, stem, steps⟩ := artifact.exists_steps_join root
  rw [same] at addresses
  exact ne_manifestName_of_source (addresses.leads.getLast?_eq steps) last

-----------------------------------------------------------------------------------------
-- Failures
-----------------------------------------------------------------------------------------

/-- A manifest that cannot be loaded is either malformed or cannot be read. -/
theorem loadManifest_eq_error {path : FilePath} (failed : loadManifest tree path = .error failure)
    : failure = .manifest ∨ failure = .inputOutput path := by
  unfold loadManifest at failed
  split at failed
  · split at failed
    · contradiction
    · exact .inl (Except.error.inj failed).symm
  · contradiction
  · exact .inr (Except.error.inj failed).symm

/-- Opening fails over a file or over the manifest that it finds. -/
theorem openAt_eq_error (failed : (openAt root tree).result = .error failure)
    : failure = .manifest ∨ ∃ path, failure = .inputOutput path := by
  unfold openAt at failed
  split at failed
  · exact .inr ⟨root, (Except.error.inj failed).symm⟩
  · split at failed
    · contradiction
    · rename_i refused
      obtain rfl := Except.error.inj failed
      exact (loadManifest_eq_error refused).imp_right fun same => ⟨_, same⟩

/-- Removals fail over a file, by induction on them. -/
theorem removeEach_eq_error {entries : List ManifestEntry}
    (failed : (removeEach root tree entries).result = .error failure)
    : ∃ path, failure = .inputOutput path := by
  induction entries generalizing tree with
  | nil => contradiction
  | cons entry rest ih =>
      cases here : tree.removeFile (root.join entry.path.text) with
      | ok middle =>
          rw [removeEach_cons_of_ok here] at failed
          exact ih failed
      | error fault =>
          cases fault with
          | absent =>
              rw [removeEach_cons_of_absent here] at failed
              exact ih failed
          | refused =>
              rw [removeEach_cons_of_refused here] at failed
              exact ⟨_, (Except.error.inj failed).symm⟩

/-- Finishing fails over a file, when it has removed what it could. -/
theorem finish_eq_error (failed : (store.finish tree).result = .error failure)
    : (∃ path, failure = .inputOutput path)
      ∧ (store.finish tree).state = (removeEach store.root tree store.stale).state := by
  unfold finish at failed ⊢
  rcases removed : removeEach store.root tree store.stale with ⟨cleared, events, found | _⟩
  · rw [removed] at failed
    obtain rfl := Except.error.inj failed
    exact ⟨removeEach_eq_error (congrArg Reply.result removed), rfl⟩
  · rw [removed] at failed
    dsimp only [Reply.andThen, Reply.telling] at failed ⊢
    split at failed
    · contradiction
    · exact ⟨⟨_, (Except.error.inj failed).symm⟩, rfl⟩

-----------------------------------------------------------------------------------------
-- What an earlier run recorded
-----------------------------------------------------------------------------------------

/-- The text of a manifest that some run has left when it finished. -/
def LeftByFinish (text : String) : Prop :=
  ∃ root start artifacts manifest after,
    Completed root start artifacts manifest after ∧ text = manifest.text

/-- What finishing has written is read as the record of some artifacts. -/
theorem LeftByFinish.exists_eq_recording {text : String} (left : LeftByFinish text)
    : ∃ artifacts, Manifest.ofText? text = some (recording artifacts) := by
  obtain ⟨_, _, artifacts, _, _, completed, rfl⟩ := left
  obtain rfl := completed.manifest_eq
  exact ⟨artifacts, Manifest.ofText?_text (pairwise_recording artifacts)⟩

/-- So is the text that is read where a run has completed. -/
theorem Completed.leftByFinish {start : FileTree} {manifest : Manifest}
    (completed : Completed root start artifacts manifest after) {text : String}
    (read : (after.ensureDirectory root).1.readText (manifestPath root) = .ok text)
    : LeftByFinish text := by
  have present := (openAt_eq_ok (congrArg Reply.result completed.openAt_eq)).1
  rw [completed.openAt_eq] at present
  have same : (after.ensureDirectory root).1 = after := present.symm
  rw [same, completed.readText_eq] at read
  obtain rfl := Except.ok.inj read
  exact ⟨_, _, _, _, _, completed, rfl⟩

/-- A store that opens over what an earlier run has left, if anything, knows of artifacts. -/
theorem previous_of_openAt (opened : (openAt root tree).result = .ok store)
    (left
      : ∀ text,
          (tree.ensureDirectory root).1.readText (manifestPath root) = .ok text
          → LeftByFinish text)
    : ∃ artifacts, store.previous = recording artifacts := by
  obtain ⟨_, _, previous, loaded, rfl⟩ := openAt_eq_ok opened
  unfold loadManifest at loaded
  split at loaded
  · rename_i text read
    obtain ⟨artifacts, parsed⟩ := (left text read).exists_eq_recording
    rw [parsed] at loaded
    obtain rfl := Except.ok.inj loaded
    exact ⟨artifacts, rfl⟩
  · obtain rfl := Except.ok.inj loaded
    exact ⟨[], rfl⟩
  · contradiction

/-- What is stale then is the file of an artifact. -/
theorem exists_artifact_of_mem_stale (recorded : store.previous = recording artifacts)
    : ∀ entry ∈ store.stale, ∃ artifact : Artifact, entry.path = artifact.relativePath := by
  intro entry stale
  obtain ⟨⟨name, _⟩, member, _, rfl⟩ := mem_stale_iff.mp stale
  rw [recorded] at member
  have found := (Ascending.lookup_eq_some_iff (pairwise_recording artifacts)).mpr member
  obtain ⟨artifact, _, _, rfl⟩ := get?_recording_eq_some_iff.mp found
  exact ⟨artifact, ManifestEntry.path_ofArtifact artifact⟩

end Wiring.DirectoryStore
