import Wiring.Proofs.Store.Histories
import Wiring.Proofs.Text.Segments

/-! What completed runs leave behind. Where a directory held no files before the first of them, each
run leaves the files that its manifest records and the manifest itself, and nothing else, whatever
artifacts were offered to the runs and whichever of them were refused.
-/

namespace Wiring

/-- A proper name says where the artifact goes. -/
theorem Artifact.IsNamed.relativePath_eq {artifact other : Artifact} (named : artifact.IsNamed)
    (otherNamed : other.IsNamed) (same : artifact.qualifiedName = other.qualifiedName)
    : artifact.relativePath = other.relativePath := by
  obtain ⟨homes, names⟩ :=
    Segments.within_inj (Segments.isSingle_of_isToken named.name)
      (Segments.isSingle_of_isToken otherNamed.name) same
  rw [relativePath, relativePath, homes, names]

namespace DirectoryStore

open FileTree

-----------------------------------------------------------------------------------------
-- During a run
-----------------------------------------------------------------------------------------

/-- The entries are those of artifacts with proper names, each under its name. -/
structure RecordsNamed (manifest : Manifest) : Prop where
  ascending : manifest.artifacts.entries.Pairwise (·.1 < ·.1)
  named
    : ∀ recorded ∈ manifest.artifacts.entries,
        ∃ artifact : Artifact,
          artifact.IsNamed ∧ recorded = (artifact.qualifiedName, ManifestEntry.ofArtifact artifact)

/-- An empty manifest records nothing under a wrong name. -/
theorem RecordsNamed.none : RecordsNamed {} :=
  ⟨.nil, by simp⟩

/-- Setting the entry of one more artifact replaces at most the entry of its name. -/
theorem RecordsNamed.mem_insert {manifest : Manifest} (records : RecordsNamed manifest)
    (artifact : Artifact) {recorded : String × ManifestEntry}
    : recorded
          ∈ (manifest.artifacts.insert artifact.qualifiedName (.ofArtifact artifact)).entries
      ↔ recorded = (artifact.qualifiedName, ManifestEntry.ofArtifact artifact)
        ∨ recorded ∈ manifest.artifacts.entries ∧ recorded.1 ≠ artifact.qualifiedName := by
  rw [Catalog.insert, Catalog.insertInto_eq_insertBy, Ascending.mem_insertBy records.ascending]

/-- Inserting an artifact under its name keeps the records named and ascending. -/
theorem RecordsNamed.insert {manifest : Manifest} (records : RecordsNamed manifest)
    {artifact : Artifact} (isNamed : artifact.IsNamed)
    : RecordsNamed
        ⟨manifest.artifacts.insert artifact.qualifiedName (.ofArtifact artifact)⟩ where
  ascending := by
    rw [Catalog.insert, Catalog.insertInto_eq_insertBy]
    exact Ascending.pairwise_insertBy _ records.ascending
  named recorded member := by
    rcases (records.mem_insert artifact).mp member with rfl | ⟨member, _⟩
    · exact ⟨artifact, isNamed, rfl⟩
    · exact records.named recorded member

/-- Entries under one name have one path, in one manifest or in two. -/
theorem RecordsNamed.path_eq {manifest other : Manifest} (records : RecordsNamed manifest)
    (otherRecords : RecordsNamed other) {recorded later : String × ManifestEntry}
    (member : recorded ∈ manifest.artifacts.entries) (otherMember : later ∈ other.artifacts.entries)
    (same : recorded.1 = later.1)
    : recorded.2.path = later.2.path := by
  obtain ⟨artifact, named, rfl⟩ := records.named recorded member
  obtain ⟨artifactLater, namedLater, rfl⟩ := otherRecords.named later otherMember
  rw [ManifestEntry.path_ofArtifact, ManifestEntry.path_ofArtifact]
  exact named.relativePath_eq namedLater same

/-- While a run goes on, each file below the directory at `base` is the manifest, or the previous run
or this one has recorded a path that leads to it.
-/
structure Tidy (base : List String) (state : DirectoryStore × FileTree) : Prop where
  reaches : state.2.follow [] state.1.root.steps = .node base .directory
  previous : RecordsNamed state.1.previous
  current : RecordsNamed state.1.current
  explained
    : ∀ rest content,
        state.2.node? (base ++ rest) = some (.file content)
        → rest = [manifestName]
          ∨ ∃ recorded
              ∈ state.1.previous.artifacts.entries ++ state.1.current.artifacts.entries,
            state.2.Addresses (state.1.root.join recorded.2.path.text) (base ++ rest)

variable {root : FilePath} {base : List String} {tree : FileTree} {store : DirectoryStore}
  {manifest : Manifest}

/-- An artifact that is refused brings no files, and one that is taken brings the file of its entry.
Under a name that was written before, the path is the same.
-/
theorem Tidy.write (tidy : Tidy base (store, tree)) {artifact : Artifact}
    (isNamed : artifact.IsNamed)
    : Tidy base (DirectoryStore.write (store, tree) artifact).state := by
  cases result : (DirectoryStore.write (store, tree) artifact).result with
  | error failure =>
      obtain ⟨same, adds⟩ := write_of_error result
      generalize (DirectoryStore.write (store, tree) artifact).state = last at same adds ⊢
      obtain ⟨after, grown⟩ := last
      obtain rfl : after = store := same
      refine ⟨follow_directory_mono tidy.reaches adds.kept.keepsDirectories, tidy.previous,
        tidy.current, fun rest content present => ?_⟩
      refine (tidy.explained rest content (adds.files _ content present)).imp_right ?_
      rintro ⟨recorded, member, leads⟩
      exact ⟨recorded, member, leads.mono adds.kept.keepsDirectories⟩
  | ok value =>
      obtain ⟨_, files⟩ := files_of_write result
      have current := files.current_eq
      obtain ⟨root, previous, _, _, names, deposits⟩ := files
      generalize (DirectoryStore.write (store, tree) artifact).state = last
        at root previous current deposits ⊢
      obtain ⟨after, grown⟩ := last
      dsimp only at root previous current deposits
      refine ⟨?_, ?_, ?_, fun rest content present => ?_⟩
      · dsimp only
        rw [root]
        exact follow_directory_mono tidy.reaches deposits.directories
      · dsimp only
        rw [previous]
        exact tidy.previous
      · dsimp only
        rw [current]
        exact tidy.current.insert isNamed
      · dsimp only at present ⊢
        rw [root, previous, current]
        have own
            : (artifact.qualifiedName, ManifestEntry.ofArtifact artifact)
              ∈ (store.current.artifacts.insert artifact.qualifiedName
                  (.ofArtifact artifact)).entries :=
          (tidy.current.mem_insert artifact).mpr (.inl rfl)
        by_cases here : base ++ rest = names
        · refine .inr ⟨_, List.mem_append_right _ own, ?_⟩
          rw [here, ManifestEntry.path_ofArtifact]
          exact deposits.addresses
        · refine (tidy.explained rest content (deposits.files _ content here present)).imp_right ?_
          rintro ⟨earlier, member, leads⟩
          replace leads := leads.mono deposits.directories
          rcases List.mem_append.mp member with member | member
          · exact ⟨earlier, List.mem_append_left _ member, leads⟩
          · by_cases sameName : earlier.1 = artifact.qualifiedName
            · have samePath :=
                tidy.current.path_eq (tidy.current.insert isNamed) member own sameName
              rw [ManifestEntry.path_ofArtifact] at samePath
              refine ⟨_, List.mem_append_right _ own, ?_⟩
              rw [ManifestEntry.path_ofArtifact, ← samePath]
              exact leads
            · have kept := (tidy.current.mem_insert artifact).mpr (.inr ⟨member, sameName⟩)
              exact ⟨earlier, List.mem_append_right _ kept, leads⟩

/-- So do any number of artifacts, taken or not, by induction on them. -/
theorem Tidy.writeAll {state : DirectoryStore × FileTree} (tidy : Tidy base state)
    {artifacts : List Artifact} (named : ∀ artifact ∈ artifacts, artifact.IsNamed)
    : Tidy base (DirectoryStore.writeAll state artifacts) := by
  induction artifacts generalizing state with
  | nil => exact tidy
  | cons artifact rest ih =>
      obtain ⟨isNamed, others⟩ := List.forall_mem_cons.mp named
      exact ih (tidy.write isNamed) others

-----------------------------------------------------------------------------------------
-- After a run
-----------------------------------------------------------------------------------------

/-- A run has left its manifest in the directory at `base`, and below it no file that the manifest
does not record.
-/
structure LeavesRecorded (root : FilePath) (base : List String) (manifest : Manifest)
    (tree : FileTree)
    : Prop where
  reaches : tree.follow [] root.steps = .node base .directory
  records : RecordsNamed manifest
  leads : tree.Addresses (manifestPath root) (base ++ [manifestName])
  explained
    : ∀ rest content,
        tree.node? (base ++ rest) = some (.file content)
        → rest = [manifestName]
          ∨ ∃ recorded ∈ manifest.artifacts.entries,
            tree.Addresses (root.join recorded.2.path.text) (base ++ rest)

/-- Finishing removes what is explained by the previous manifest alone. -/
theorem Tidy.finish (tidy : Tidy base (store, tree))
    (finished : (store.finish tree).result = .ok manifest)
    : LeavesRecorded store.root base manifest (store.finish tree).state := by
  obtain ⟨forth, _⟩ := keepsDirectories_of_finish finished
  obtain ⟨rfl, cleared, names, clears, leads, alters⟩ := clears_of_finish finished
  have reaches := follow_directory_mono tidy.reaches clears.directories
  have ownName : (FilePath.mk manifestName).steps = [manifestName].map .name :=
    isSegment_manifestName.steps_eq
  obtain rfl : names = base ++ [manifestName] :=
    leads.leads.eq_append_of_join reaches ownName (by simp)
  refine ⟨follow_directory_mono tidy.reaches forth, tidy.current,
    leads.mono alters.keepsDirectories, fun rest content present => ?_⟩
  by_cases here : rest = [manifestName]
  · exact .inl here
  · refine .inr ?_
    rw [alters.elsewhere _ (by simpa using here)] at present
    -- The file was not cleared, so no stale path led to it.
    have spared
        : ∀ stale ∈ store.stale.map fun entry => store.root.join entry.path.text,
            ¬ tree.Addresses stale (base ++ rest) := by
      intro stale member leads
      have vacant := clears.gone _ stale member leads fun directory => by
        simp [clears.directories _ directory] at present
      simp [vacant] at present
    rw [clears.kept _ spared] at present
    obtain ⟨recorded, member, leads⟩ := (tidy.explained rest content present).resolve_left here
    rcases List.mem_append.mp member with member | member
    · cases kept : store.current.artifacts.contains recorded.1 with
      | false =>
          refine absurd leads (spared _ (List.mem_map_of_mem (List.mem_map.mpr ?_)))
          exact ⟨recorded, List.mem_filter.mpr ⟨member, by simp [kept]⟩, rfl⟩
      | true =>
          obtain ⟨later, among, same⟩ := List.mem_map.mp (List.contains_iff_mem.mp kept)
          refine ⟨later, among, ?_⟩
          rw [← tidy.previous.path_eq tidy.current member among same.symm]
          exact leads.mono forth
    · exact ⟨recorded, member, leads.mono forth⟩

/-- No file stands in the directory, nor below it. -/
def HoldsNoFile (root : FilePath) (tree : FileTree) : Prop :=
  ∀ base rest content,
    tree.follow [] root.steps = .node base .directory
    → tree.node? (base ++ rest) ≠ some (.file content)

/-- A store that opens where there are no files finds nothing recorded. -/
theorem eq_of_holdsNoFile (empty : HoldsNoFile root (tree.ensureDirectory root).1)
    (opened : (openAt root tree).result = .ok store)
    : store = { root, previous := {} } := by
  obtain ⟨_, ensured, previous, loaded, rfl⟩ := openAt_eq_ok opened
  obtain ⟨base, reaches⟩ := follow_ensureDirectory ensured
  unfold loadManifest at loaded
  split at loaded
  · rename_i text read
    obtain ⟨names, addresses, present⟩ := readText_eq_ok_iff.mp read
    have ownName : (FilePath.mk manifestName).steps = [manifestName].map .name :=
      isSegment_manifestName.steps_eq
    obtain rfl : names = base ++ [manifestName] :=
      addresses.leads.eq_append_of_join reaches ownName (by simp)
    exact absurd present (empty base _ _ reaches)
  · obtain rfl := Except.ok.inj loaded
    rfl
  · contradiction

/-- A run begins tidily where there are no files. -/
theorem tidy_of_holdsNoFile (empty : HoldsNoFile root (tree.ensureDirectory root).1)
    (opened : (openAt root tree).result = .ok store)
    : store.root = root ∧ ∃ base, Tidy base (store, (openAt root tree).state) := by
  obtain rfl := eq_of_holdsNoFile empty opened
  obtain ⟨state, ensured, _⟩ := openAt_eq_ok opened
  obtain ⟨base, reaches⟩ := follow_ensureDirectory ensured
  refine ⟨rfl, base, state ▸ reaches, .none, .none, fun rest content present => ?_⟩
  rw [state] at present
  exact absurd present (empty base rest content reaches)

/-- A run begins tidily where another one has completed. -/
theorem LeavesRecorded.tidy (leaves : LeavesRecorded root base manifest tree)
    : Tidy base ({ root, previous := manifest }, tree) :=
  ⟨leaves.reaches, leaves.records, .none, by simpa using leaves.explained⟩

-----------------------------------------------------------------------------------------
-- Run after run
-----------------------------------------------------------------------------------------

/-- What completed runs of artifacts with proper names have made of a tree: the manifest of the last
run, and the tree after it. A run may have refused some of its artifacts.
-/
inductive CompletedRuns (root : FilePath) (start : FileTree) : Manifest → FileTree → Prop
  | first {artifacts manifest} (named : ∀ artifact ∈ artifacts, artifact.IsNamed)
    (completed : (run root start artifacts).result = .ok manifest)
    : CompletedRuns root start manifest (run root start artifacts).state
  | next {previous tree artifacts manifest} (before : CompletedRuns root start previous tree)
    (named : ∀ artifact ∈ artifacts, artifact.IsNamed)
    (completed : (run root tree artifacts).result = .ok manifest)
    : CompletedRuns root start manifest (run root tree artifacts).state

/-- What completed runs leave opens again, as it is. -/
theorem CompletedRuns.openAt_eq {start : FileTree} (runs : CompletedRuns root start manifest tree)
    : openAt root tree = .done tree { root, previous := manifest } := by
  cases runs with
  | first _ completed => exact openAt_run completed
  | next _ _ completed => exact openAt_run completed

/-- A run that begins tidily leaves what it has recorded. -/
theorem leavesRecorded_of_run {artifacts : List Artifact}
    (named : ∀ artifact ∈ artifacts, artifact.IsNamed)
    (completed : (run root tree artifacts).result = .ok manifest)
    (opened : (openAt root tree).result = .ok store) (sameRoot : store.root = root)
    (tidy : Tidy base (store, (openAt root tree).state))
    : LeavesRecorded root base manifest (run root tree artifacts).state := by
  obtain ⟨reopened, same, last, wrote, finished, after⟩ := run_eq_ok completed
  obtain rfl : store = reopened := Except.ok.inj (opened.symm.trans same)
  have continues := continues_writeAll (store, (openAt root tree).state) artifacts
  rw [wrote] at continues
  have leaves := (wrote ▸ tidy.writeAll named : Tidy base last).finish finished
  rw [continues.root, sameRoot] at leaves
  rw [after]
  exact leaves

/-- Each completed run leaves what it has recorded, by induction on the runs. -/
theorem CompletedRuns.leavesRecorded {start : FileTree}
    (runs : CompletedRuns root start manifest tree)
    (empty : HoldsNoFile root (start.ensureDirectory root).1)
    : ∃ base, LeavesRecorded root base manifest tree := by
  induction runs with
  | first named completed =>
      obtain ⟨store, opened, _⟩ := run_eq_ok completed
      obtain ⟨sameRoot, base, tidy⟩ := tidy_of_holdsNoFile empty opened
      exact ⟨base, leavesRecorded_of_run named completed opened sameRoot tidy⟩
  | @next previous tree _ _ before named completed ih =>
      obtain ⟨base, leaves⟩ := ih
      have opened := before.openAt_eq
      refine ⟨base, leavesRecorded_of_run named completed (congrArg Reply.result opened) rfl ?_⟩
      rw [opened]
      exact leaves.tidy

/-- After completed runs on a directory that held no files at first, each file in the directory or
below is the manifest, or the file that some entry of the manifest leads to.
-/
theorem CompletedRuns.file_recorded {start : FileTree}
    (runs : CompletedRuns root start manifest tree)
    (empty : HoldsNoFile root (start.ensureDirectory root).1)
    : ∀ base rest content,
        tree.follow [] root.steps = .node base .directory
        → tree.node? (base ++ rest) = some (.file content)
        → tree.place (manifestPath root) = .node (base ++ rest) (.file content)
          ∨ ∃ recorded ∈ manifest.artifacts.entries,
            tree.place (root.join recorded.2.path.text) = .node (base ++ rest) (.file content) := by
  intro base rest content reaches present
  obtain ⟨found, leaves⟩ := runs.leavesRecorded empty
  obtain rfl : found = base := by simpa using leaves.reaches.symm.trans reaches
  rcases leaves.explained rest content present with rfl | ⟨recorded, member, leads⟩
  · refine .inl ?_
    rw [leaves.leads.place_eq, present]
    rfl
  · refine .inr ⟨recorded, member, ?_⟩
    rw [leads.place_eq, present]
    rfl

/-- A run that keeps the pool of the run before, and offers a second artifact for the same file. -/
def clashingPools : List Artifact :=
  [netFactory "Pool" "pool", netFactory "POOL" "other"]

/-- A root that has just been made holds no file, as it holds nothing. -/
theorem holdsNoFile_start : HoldsNoFile ⟨"out"⟩ (FileTree.ensureDirectory {} ⟨"out"⟩).1 := by
  intro base rest content _ present
  have made : (FileTree.ensureDirectory {} ⟨"out"⟩).1 = ⟨[(["out"], .directory)]⟩ := by
    decide +kernel
  rw [made, node?] at present
  split at present
  · simp at present
  · rw [List.lookup_cons, List.lookup_nil] at present
    split at present <;> simp at present

/-- What the run offers is written, up to the end of the run. -/
def afterPools : Reply FileTree Manifest :=
  (writeAll (secondStore, firstTree) clashingPools).1.finish
    (writeAll (secondStore, firstTree) clashingPools).2

/-- The run opens the store that the first run left. -/
theorem run_clashingPools : run ⟨"out"⟩ firstTree clashingPools = afterPools := by
  obtain ⟨first, _⟩ := results_of_runs
  have opened : openAt ⟨"out"⟩ firstTree = .done firstTree secondStore :=
    openAt_run (eq_ok_of_toOption_eq_some first)
  rw [run, opened, Reply.done_andThen, afterPools]

/-- The pool is recorded alone, and it is the file that is left. -/
theorem results_of_pools
    : (∀ artifact ∈ firstFactories ++ clashingPools, artifact.IsNamed)
      ∧ afterPools.result.toOption = some (recording [netFactory "Pool" "pool"])
      ∧ afterPools.state.follow [] (FilePath.steps ⟨"out"⟩) = .node ["out"] .directory
      ∧ afterPools.state.node? (["out"] ++ ["net", "pool.rs"]) = some (.file (.text "pool"))
      ∧ afterPools.state.place (manifestPath ⟨"out"⟩)
        ≠ .node (["out"] ++ ["net", "pool.rs"]) (.file (.text "pool")) := by
  decide +kernel

/-- It completes after the first one, though it refuses one of its artifacts. -/
theorem completedRuns_clashingPools
    : CompletedRuns ⟨"out"⟩ {} (recording [netFactory "Pool" "pool"])
        (run ⟨"out"⟩ firstTree clashingPools).state := by
  obtain ⟨first, _⟩ := results_of_runs
  obtain ⟨named, second, _⟩ := results_of_pools
  have runs : CompletedRuns ⟨"out"⟩ {} (recording firstFactories) firstTree :=
    .first (fun artifact among => named artifact (List.mem_append_left _ among))
      (eq_ok_of_toOption_eq_some first)
  refine .next runs (fun artifact among => named artifact (List.mem_append_right _ among)) ?_
  rw [run_clashingPools]
  exact eq_ok_of_toOption_eq_some second

/-- Witness: the pool that was taken is recorded, and its file holds it. -/
theorem CompletedRuns.file_recorded_clashingPools
    : ∃ recorded ∈ (recording [netFactory "Pool" "pool"]).artifacts.entries,
        (run ⟨"out"⟩ firstTree clashingPools).state.place
            (FilePath.join ⟨"out"⟩ recorded.2.path.text)
          = .node (["out"] ++ ["net", "pool.rs"]) (.file (.text "pool")) := by
  have runs := completedRuns_clashingPools
  obtain ⟨_, _, reaches, present, apart⟩ := results_of_pools
  rw [run_clashingPools] at runs ⊢
  exact (runs.file_recorded holdsNoFile_start _ _ _ reaches present).resolve_left apart

end DirectoryStore

end Wiring
