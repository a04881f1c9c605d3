import Wiring.Proofs.FileTree.Overlays
import Wiring.Proofs.Store.Regeneration

/-! A run over files that were left over, and the same run without them. What the one run takes, the
other one takes as well. The files that they leave differ at most by those that were left over, and
not where the run wrote a file or removed one.
-/

namespace Wiring

/-- The file of an artifact ends in the extension of source files, wherever it goes. -/
theorem Artifact.exists_steps_join (root : FilePath) (artifact : Artifact)
    : ∃ above stem,
        (root.join artifact.relativePath.text).steps = above ++ [PathStep.name (stem ++ ".rs")] := by
  obtain ⟨front, whole⟩ := root.exists_text_join artifact.relativePath.text
  obtain ⟨middle, relative⟩ :=
    (FilePath.ofSegments (directories artifact.home)).exists_text_join
      (SnakeCase.ofName artifact.name ++ ".rs")
  have text
      : (root.join artifact.relativePath.text).text
        = front ++ middle ++ SnakeCase.ofName artifact.name ++ ".rs" := by
    rw [whole, relativePath, relative, ← String.append_assoc, ← String.append_assoc]
  exact FilePath.exists_last_name text

namespace DirectoryStore

open FileTree

variable {root : FilePath} {base names : List String} {tree later : FileTree}
  {store : DirectoryStore} {plain full : DirectoryStore × FileTree}
  {leftover : List String → FileContent → Prop} {artifact : Artifact} {artifacts : List Artifact}
  {manifest : Manifest}

-----------------------------------------------------------------------------------------
-- Artifacts
-----------------------------------------------------------------------------------------

/-- An artifact that is taken adds directories, and then alters one file. -/
theorem exists_alters_of_write (taken : (write (store, tree) artifact).result = .ok ())
    : ∃ middle names,
        tree.AddsDirectories middle
        ∧ middle.Addresses (store.root.join artifact.relativePath.text) names
        ∧ middle.Alters (write (store, tree) artifact).state.2 names
            (some (.file (.text artifact.content))) := by
  obtain ⟨above, stem, steps⟩ := artifact.exists_steps_join store.root
  obtain ⟨parent, hasParent⟩ := FilePath.exists_parent?_eq steps
  have writes :=
    write_eq_writeFile (files_of_write taken).1 hasParent (ensured_of_taken taken hasParent)
  rw [writes] at taken
  obtain ⟨names, addresses, alters⟩ := alters_of_writeFile taken
  rw [← writes] at alters
  exact ⟨_, names, addsDirectories_ensureDirectory tree parent, addresses, alters⟩

/-- A file can be written where there is no directory. -/
theorem exists_alters_of_writeFile (store : DirectoryStore) (artifact : Artifact) {path : FilePath}
    (addresses : tree.Addresses path names)
    (noDirectory : tree.node? names ≠ some .directory)
    : (store.writeFile tree path artifact).result = .ok ()
      ∧ tree.Alters (store.writeFile tree path artifact).state.2 names
          (some (.file (.text artifact.content))) := by
  have taken : (store.writeFile tree path artifact).result = .ok () := by
    obtain ⟨other, wrote⟩ := addresses.exists_write noDirectory (.text artifact.content)
    unfold writeFile
    split
    · rfl
    · rw [wrote]
      rfl
  obtain ⟨others, again, alters⟩ := alters_of_writeFile taken
  exact ⟨taken, addresses.unique again ▸ alters⟩

/-- What both runs have in common, up to the files that were left over. -/
structure Shadows (leftover : List String → FileContent → Prop)
    (plain full : DirectoryStore × FileTree)
    : Prop where
  root : plain.1.root = full.1.root
  previous : plain.1.previous = full.1.previous
  current : plain.1.current = full.1.current
  overlaid : Overlaid leftover plain.2 full.2

/-- What is taken over the files that were left over is taken without them, and nothing is left over at
its place. The directories can be made in both trees, the check for clashes reads the records alone,
and the file is written at one place.
-/
theorem Shadows.write (shadows : Shadows leftover plain full)
    (taken : (DirectoryStore.write full artifact).result = .ok ())
    : ∃ names,
        (DirectoryStore.write full artifact).state.2.Addresses
            (full.1.root.join artifact.relativePath.text) names
        ∧ (DirectoryStore.write plain artifact).result = .ok ()
        ∧ Shadows (fun others content => others ≠ names ∧ leftover others content)
            (DirectoryStore.write plain artifact).state
            (DirectoryStore.write full artifact).state := by
  obtain ⟨plainStore, plainTree⟩ := plain
  obtain ⟨fullStore, fullTree⟩ := full
  obtain ⟨sameRoot, samePrevious, sameCurrent, overlaid⟩ := shadows
  dsimp only at sameRoot samePrevious sameCurrent overlaid ⊢
  obtain ⟨noClash, files⟩ := files_of_write taken
  obtain ⟨above, stem, steps⟩ := artifact.exists_steps_join fullStore.root
  obtain ⟨parent, hasParent⟩ := FilePath.exists_parent?_eq steps
  -- The directory can be made in both trees.
  have ensured := ensured_of_taken taken hasParent
  have fullWrites := write_eq_writeFile noClash hasParent ensured
  obtain ⟨ensuredPlain, overlaid⟩ := overlaid.ensureDirectory ensured
  have noClashPlain : plainStore.clash? artifact = none := by
    rw [clash?, sameCurrent]
    exact noClash
  have plainWrites := write_eq_writeFile noClashPlain (by rw [sameRoot]; exact hasParent) ensuredPlain
  rw [fullWrites] at taken
  obtain ⟨names, addresses, alters⟩ := alters_of_writeFile taken
  -- So the file can be written in both, and they are alike where it is.
  have there := ensureDirectory_of_keepsDirectories ensuredPlain (.refl _)
  have addressesPlain :=
    overlaid.addresses addresses steps hasParent (by rw [there]) (by rw [there])
  have noDirectory : (plainTree.ensureDirectory parent).1.node? names ≠ some .directory :=
    fun present => alters.noDirectoryBefore (overlaid.directories names present)
  obtain ⟨takenPlain, altersPlain⟩ :=
    exists_alters_of_writeFile plainStore artifact addressesPlain noDirectory
  have filesPlain := files_of_writeFile takenPlain
  rw [plainWrites, sameRoot, fullWrites]
  rw [fullWrites] at files
  refine ⟨names, addresses.mono alters.keepsDirectories, takenPlain, ?_, ?_, ?_,
    overlaid.alters altersPlain alters⟩
  · exact filesPlain.root.trans (sameRoot.trans files.root.symm)
  · exact filesPlain.previous.trans (samePrevious.trans files.previous.symm)
  · rw [filesPlain.current_eq, files.current_eq, sameCurrent]

-----------------------------------------------------------------------------------------
-- Stale files
-----------------------------------------------------------------------------------------

/-- Removing an entry empties the place its path leads to, whether a file is there or not. -/
theorem exists_removeEach_cons {entry : ManifestEntry} (rest : List ManifestEntry)
    (addresses : tree.Addresses (root.join entry.path.text) names)
    (noDirectory : tree.node? names ≠ some .directory)
    : ∃ after,
        tree.Alters after names none
        ∧ (removeEach root tree (entry :: rest)).result = (removeEach root after rest).result
        ∧ (removeEach root tree (entry :: rest)).state = (removeEach root after rest).state := by
  have place := addresses.place_eq
  cases held : tree.node? names with
  | none =>
      have absent : tree.removeFile (root.join entry.path.text) = .error .absent := by
        simp [removeFile, place, held, Place.holding]
      rw [removeEach_cons_of_absent absent]
      exact ⟨tree, ⟨held, fun _ _ => rfl, by simp, by simp [held]⟩, rfl, rfl⟩
  | some node =>
      cases node with
      | directory => exact absurd held noDirectory
      | file content =>
          have removed : tree.removeFile (root.join entry.path.text) = .ok (tree.erase names) := by
            simp [removeFile, place, held, Place.holding]
          obtain ⟨others, _, again, _, alters⟩ := alters_of_removeFile removed
          obtain rfl := addresses.unique again
          rw [removeEach_cons_of_ok removed]
          exact ⟨_, alters, rfl, rfl⟩

/-- Where removals succeed, none of the entries leads to a directory, which would have been refused. -/
theorem noDirectory_of_removeEach {entry : ManifestEntry} {rest : List ManifestEntry}
    (addresses : tree.Addresses (root.join entry.path.text) names)
    (removed : (removeEach root tree (entry :: rest)).result = .ok ())
    : tree.node? names ≠ some .directory := by
  intro held
  have refused : tree.removeFile (root.join entry.path.text) = .error .refused := by
    simp [removeFile, addresses.place_eq, held, Place.holding]
  rw [removeEach_cons_of_refused refused] at removed
  cases removed

/-- What is left over apart from the places of the paths. -/
def Apart (later : FileTree) (paths : List FilePath) (leftover : List String → FileContent → Prop)
    (names : List String) (content : FileContent)
    : Prop :=
  leftover names content ∧ ∀ path ∈ paths, ¬ later.Addresses path names

/-- Apart from no paths, everything is left. -/
theorem apart_nil : Apart later [] leftover = leftover := by
  funext names content
  simp [Apart]

/-- Apart from a path more, its place is left out. -/
theorem apart_cons {path : FilePath} {paths : List FilePath} (addresses : later.Addresses path names)
    : Apart later (path :: paths) leftover
      = Apart later paths fun others content => others ≠ names ∧ leftover others content := by
  funext others content
  have leads : later.Addresses path others ↔ others = names :=
    ⟨fun again => again.unique addresses, fun same => same ▸ addresses⟩
  simp only [Apart, List.forall_mem_cons, leads, eq_iff_iff]
  tauto

/-- The same for a path at the end, since the order of paths does not matter. -/
theorem apart_concat {path : FilePath} {paths : List FilePath} (addresses : later.Addresses path names)
    : Apart later (paths ++ [path]) leftover
      = fun others content => others ≠ names ∧ Apart later paths leftover others content := by
  funext others content
  have leads : later.Addresses path others ↔ others = names :=
    ⟨fun again => again.unique addresses, fun same => same ▸ addresses⟩
  simp only [Apart, List.forall_mem_append, List.forall_mem_singleton, leads, eq_iff_iff]
  tauto

/-- What is removed over the files that were left over is removed without them, by induction on the
entries.
-/
theorem removeEach_overlaid {entries : List ManifestEntry} {plain full : FileTree}
    (overlaid : Overlaid leftover plain full)
    (located : ∀ entry ∈ entries, ∃ names, plain.Addresses (root.join entry.path.text) names)
    (removed : (removeEach root full entries).result = .ok ())
    (keeps : (removeEach root full entries).state.KeepsDirectories later)
    : (removeEach root plain entries).result = .ok ()
      ∧ Overlaid (Apart later (entries.map fun entry => root.join entry.path.text) leftover)
          (removeEach root plain entries).state (removeEach root full entries).state := by
  induction entries generalizing plain full leftover with
  | nil => exact ⟨rfl, by rw [List.map_nil, apart_nil]; exact overlaid⟩
  | cons entry rest ih =>
      obtain ⟨⟨names, addresses⟩, others⟩ := List.forall_mem_cons.mp located
      have addressesFull := addresses.mono overlaid.directories
      have noDirectory := noDirectory_of_removeEach addressesFull removed
      obtain ⟨plainAfter, plainAlters, plainResult, plainState⟩ :=
        exists_removeEach_cons rest addresses fun present =>
          noDirectory (overlaid.directories names present)
      obtain ⟨fullAfter, fullAlters, fullResult, fullState⟩ :=
        exists_removeEach_cons rest addressesFull noDirectory
      rw [fullResult] at removed
      rw [fullState] at keeps ⊢
      rw [plainResult, plainState]
      have keptAfter : fullAfter.KeepsDirectories later :=
        (clears_of_removeEach removed).directories.trans keeps
      rw [List.map_cons,
        apart_cons (addressesFull.mono (fullAlters.keepsDirectories.trans keptAfter))]
      refine ih (overlaid.alters plainAlters fullAlters) (fun entry member => ?_) removed keeps
      obtain ⟨others, leads⟩ := others entry member
      exact ⟨others, leads.mono plainAlters.keepsDirectories⟩

/-- The run without the files that were left over finishes as the other one does. The stale entries and
the manifest are the same ones, and both lead to one place in both trees.
-/
theorem Shadows.finish (shadows : Shadows leftover plain full)
    (located : ∀ entry ∈ full.1.stale, ∃ names, plain.2.Addresses (full.1.root.join entry.path.text) names)
    (manifestLeads : plain.2.Addresses (manifestPath full.1.root) names)
    (finished : (full.1.finish full.2).result = .ok manifest)
    : (plain.1.finish plain.2).result = .ok manifest
      ∧ Overlaid
          (fun others content =>
            others ≠ names
            ∧ Apart (full.1.finish full.2).state
                (full.1.stale.map fun entry => full.1.root.join entry.path.text) leftover
                others content)
          (plain.1.finish plain.2).state (full.1.finish full.2).state := by
  obtain ⟨sameRoot, samePrevious, sameCurrent, overlaid⟩ := shadows
  have sameStale : plain.1.stale = full.1.stale := by rw [stale, stale, samePrevious, sameCurrent]
  obtain ⟨rfl, removed, wrote⟩ := finish_eq_ok_iff.mp ⟨finished, rfl⟩
  obtain ⟨others, addresses, alters⟩ := alters_of_write wrote
  obtain ⟨removedPlain, overlaid⟩ :=
    removeEach_overlaid overlaid located removed alters.keepsDirectories
  -- The manifest is written to one place in both trees.
  have forth := (clears_of_removeEach removedPlain).directories
  have manifestLeads := manifestLeads.mono forth
  obtain rfl := (manifestLeads.mono overlaid.directories).unique addresses
  obtain ⟨after, wrotePlain⟩ :=
    manifestLeads.exists_write
      (fun present => alters.noDirectoryBefore (overlaid.directories names present))
      (.text full.1.current.text)
  obtain ⟨others, again, altersPlain⟩ := alters_of_write wrotePlain
  obtain rfl := manifestLeads.unique again
  obtain ⟨result, state⟩ :=
    finish_eq_ok_iff.mpr
      ⟨rfl, by rw [sameRoot, sameStale]; exact removedPlain,
        by rw [sameRoot, sameStale, sameCurrent]; exact wrotePlain⟩
  refine ⟨by rw [result, sameCurrent], ?_⟩
  rw [state]
  exact overlaid.alters altersPlain alters

end DirectoryStore

end Wiring
