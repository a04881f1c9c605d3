import Wiring.Proofs.Store.Writing

/-! Finishing a run. Files that the previous run recorded under names without a successor are removed
by the paths recorded for them. A file just written survives that exactly when none of those paths
leads to it; where names changed and the path did not, it is lost.
-/

namespace Wiring.DirectoryStore

open FileTree

-----------------------------------------------------------------------------------------
-- Removing
-----------------------------------------------------------------------------------------

/-- What removing files by paths leaves: all directories, and the files that no path leads to. -/
structure Clears (before after : FileTree) (paths : List FilePath) : Prop where
  directories : before.KeepsDirectories after
  noDirectories : after.KeepsDirectories before
  kept
    : ∀ names,
        (∀ path ∈ paths, ¬ before.Addresses path names) → after.node? names = before.node? names
  gone
    : ∀ names,
        ∀ path ∈ paths,
          before.Addresses path names
          → before.node? names ≠ some .directory
          → after.node? names = none

/-- Clearing nothing changes nothing. -/
theorem Clears.nil (tree : FileTree) : Clears tree tree [] :=
  ⟨.refl tree, .refl tree, fun _ _ => rfl, by simp⟩

/-- What is there afterwards was there before. -/
theorem Clears.extended {before after : FileTree} {paths : List FilePath}
    (clears : Clears before after paths)
    : after.Extends before := by
  intro names node present
  by_cases led : ∃ path ∈ paths, before.Addresses path names
  · obtain ⟨path, member, addresses⟩ := led
    by_cases held : before.node? names = some .directory
    · rwa [held, ← clears.directories names held]
    · rw [clears.gone names path member addresses held] at present
      contradiction
  · rwa [← clears.kept names fun path member leads => led ⟨path, member, leads⟩]

/-- Nothing comes to be where nothing was. -/
theorem Clears.vacant {before after : FileTree} {paths : List FilePath} {names : List String}
    (clears : Clears before after paths) (vacant : before.node? names = none)
    : after.node? names = none := by
  refine Option.eq_none_iff_forall_ne_some.mpr fun node present => ?_
  rw [clears.extended names node present] at vacant
  contradiction

/-- A path that leads to no file is passed over. -/
theorem Clears.passed {before after : FileTree} {path : FilePath} {paths : List FilePath}
    (absent : before.removeFile path = .error .absent) (clears : Clears before after paths)
    : Clears before after (path :: paths) := by
  refine ⟨clears.directories, clears.noDirectories, ?_, ?_⟩
  · intro names none
    exact clears.kept names (fun other member => none other (List.mem_cons_of_mem path member))
  · intro names other member leads noDirectory
    rcases List.mem_cons.mp member with rfl | member
    · refine clears.vacant ?_
      cases held : before.node? names with
      | none => rfl
      | some node =>
          cases node with
          | directory => exact absurd held noDirectory
          | file content => exact absurd held (not_file_of_absent absent leads content)
    · exact clears.gone names other member leads noDirectory

/-- A path to a file clears the place it leads to. -/
theorem Clears.removed {before middle after : FileTree} {path : FilePath} {paths : List FilePath}
    (removed : before.removeFile path = .ok middle) (clears : Clears middle after paths)
    : Clears before after (path :: paths) := by
  obtain ⟨place, content, addresses, held, alters⟩ := alters_of_removeFile removed
  have forth := alters.keepsDirectories
  have back := alters.symm.keepsDirectories
  refine ⟨forth.trans clears.directories, clears.noDirectories.trans back, ?_, ?_⟩
  · intro names none
    have differs : names ≠ place := by
      rintro rfl
      exact none path (by simp) addresses
    rw [clears.kept names, alters.elsewhere names differs]
    intro other member leads
    exact none other (List.mem_cons_of_mem path member) (leads.mono back)
  · intro names other member leads noDirectory
    rcases List.mem_cons.mp member with rfl | member
    · obtain rfl := addresses.unique leads
      exact clears.vacant alters.here
    · exact clears.gone names other member (leads.mono forth)
        (fun present => noDirectory (back names present))

/-- No entries are removed without a change. -/
@[simp]
theorem removeEach_nil (root : FilePath) (tree : FileTree)
    : removeEach root tree [] = .done tree () :=
  rfl

section

variable {root : FilePath} {tree after : FileTree} {entry : ManifestEntry}

/-- A file that can be removed is removed, and reported, before the rest. -/
theorem removeEach_cons_of_ok
    (removed : tree.removeFile (root.join entry.path.text) = .ok after) (rest : List ManifestEntry)
    : removeEach root tree (entry :: rest)
      = (removeEach root after rest).telling [.removedStale (root.join entry.path.text)] := by
  conv_lhs => unfold removeEach
  simp only [removed]

/-- A file that is not there is passed over. -/
theorem removeEach_cons_of_absent
    (absent : tree.removeFile (root.join entry.path.text) = .error .absent)
    (rest : List ManifestEntry)
    : removeEach root tree (entry :: rest) = removeEach root tree rest := by
  conv_lhs => unfold removeEach
  simp only [absent]

/-- A file that cannot be removed ends the removals. -/
theorem removeEach_cons_of_refused
    (refused : tree.removeFile (root.join entry.path.text) = .error .refused)
    (rest : List ManifestEntry)
    : removeEach root tree (entry :: rest)
      = .failed tree (.inputOutput (root.join entry.path.text)) := by
  unfold removeEach
  simp only [refused]

end

/-- Removing entries clears the places that their paths lead to, by induction on the entries. -/
theorem clears_of_removeEach {root : FilePath} {tree : FileTree} {entries : List ManifestEntry}
    (removed : (removeEach root tree entries).result = .ok ())
    : Clears tree (removeEach root tree entries).state
        (entries.map fun entry => root.join entry.path.text) := by
  induction entries generalizing tree with
  | nil => exact .nil tree
  | cons entry rest ih =>
      cases here : tree.removeFile (root.join entry.path.text) with
      | ok middle =>
          rw [removeEach_cons_of_ok here] at removed ⊢
          exact .removed here (ih removed)
      | error fault =>
          cases fault with
          | absent =>
              rw [removeEach_cons_of_absent here] at removed ⊢
              exact .passed here (ih removed)
          | refused =>
              rw [removeEach_cons_of_refused here] at removed
              cases removed

/-- Removing that stops early has cleared the places of what comes before, by induction on the entries. -/
theorem exists_clears_removeEach (root : FilePath) (tree : FileTree) (entries : List ManifestEntry)
    : ∃ removed,
        removed <+: entries
        ∧ Clears tree (removeEach root tree entries).state
            (removed.map fun entry => root.join entry.path.text) := by
  induction entries generalizing tree with
  | nil => exact ⟨[], List.prefix_rfl, .nil tree⟩
  | cons entry rest ih =>
      cases here : tree.removeFile (root.join entry.path.text) with
      | ok middle =>
          rw [removeEach_cons_of_ok here]
          obtain ⟨removed, early, clears⟩ := ih middle
          exact ⟨entry :: removed, (List.prefix_cons_inj entry).mpr early, .removed here clears⟩
      | error fault =>
          cases fault with
          | absent =>
              rw [removeEach_cons_of_absent here]
              obtain ⟨removed, early, clears⟩ := ih tree
              exact ⟨entry :: removed, (List.prefix_cons_inj entry).mpr early, .passed here clears⟩
          | refused =>
              rw [removeEach_cons_of_refused here]
              exact ⟨[], List.nil_prefix, .nil tree⟩

-----------------------------------------------------------------------------------------
-- Finishing
-----------------------------------------------------------------------------------------

/-- A run finishes if and only if what is stale can be removed, and then the manifest written. -/
theorem finish_eq_ok_iff {store : DirectoryStore} {tree after : FileTree} {manifest : Manifest}
    : (store.finish tree).result = .ok manifest ∧ (store.finish tree).state = after
      ↔ manifest = store.current
        ∧ (removeEach store.root tree store.stale).result = .ok ()
        ∧ (removeEach store.root tree store.stale).state.write (manifestPath store.root)
            (.text store.current.text)
          = .ok after := by
  unfold finish
  rcases removeEach store.root tree store.stale with ⟨cleared, events, _ | value⟩
  · simp [Reply.andThen]
  · cases wrote : cleared.write (manifestPath store.root) (.text store.current.text) with
    | error fault => simp [wrote, Reply.andThen, Reply.failed, Reply.telling]
    | ok written => simp [wrote, Reply.andThen, Reply.telling, Reply.done, eq_comm]

/-- A run that finishes clears what is stale, and then writes its manifest. -/
theorem clears_of_finish {store : DirectoryStore} {tree : FileTree} {manifest : Manifest}
    (finished : (store.finish tree).result = .ok manifest)
    : manifest = store.current
      ∧ ∃ cleared names,
          Clears tree cleared (store.stale.map fun entry => store.root.join entry.path.text)
          ∧ cleared.Addresses (manifestPath store.root) names
          ∧ cleared.Alters (store.finish tree).state names
              (some (.file (.text store.current.text))) := by
  obtain ⟨same, removed, wrote⟩ := finish_eq_ok_iff.mp ⟨finished, rfl⟩
  obtain ⟨names, addresses, alters⟩ := alters_of_write wrote
  exact ⟨same, _, names, clears_of_removeEach removed, addresses, alters⟩

/-- Finishing neither adds nor removes directories. -/
theorem keepsDirectories_of_finish {store : DirectoryStore} {tree : FileTree} {manifest : Manifest}
    (finished : (store.finish tree).result = .ok manifest)
    : tree.KeepsDirectories (store.finish tree).state
      ∧ (store.finish tree).state.KeepsDirectories tree := by
  obtain ⟨_, cleared, names, clears, _, alters⟩ := clears_of_finish finished
  exact ⟨clears.directories.trans alters.keepsDirectories,
    alters.symm.keepsDirectories.trans clears.noDirectories⟩

/-- The manifest and the artifacts of a run are told apart by the ends of their names. -/
theorem fileName_ne_manifestName (artifact : Artifact)
    : artifact.fileName ≠ manifestName := by
  intro same
  have ends : artifact.fileName.toList.getLast? = some 's' := by simp [Artifact.fileName]
  rw [same] at ends
  exact absurd ends (by decide)

/-- The name of the manifest is a proper segment. -/
theorem isSegment_manifestName : FilePath.IsSegment manifestName :=
  ⟨by decide, by decide, by decide, by decide⟩

/-- The previous run recorded a path that leads to the same place, under a name that this run does
not have.
-/
def Doomed (root : FilePath) (previous manifest : Manifest) (tree : FileTree) (path : FilePath)
    : Prop :=
  ∃ recorded ∈ previous.artifacts.entries,
    manifest.artifacts.contains recorded.1 = false
    ∧ tree.place (root.join recorded.2.path.text) = tree.place (root.join path.text)

instance (root : FilePath) (previous manifest : Manifest) (tree : FileTree) (path : FilePath)
    : Decidable (Doomed root previous manifest tree path) :=
  inferInstanceAs (Decidable (∃ recorded ∈ _, _ ∧ _))

/-- An entry is stale if the last run recorded it under a name that this one has not. -/
theorem mem_stale_iff {store : DirectoryStore} {entry : ManifestEntry}
    : entry ∈ store.stale
      ↔ ∃ recorded ∈ store.previous.artifacts.entries,
          store.current.artifacts.contains recorded.1 = false ∧ recorded.2 = entry := by
  simp [stale, and_assoc]

/-- A file is doomed if and only if a stale path leads to its place. That can be seen from the tree
with the stale files gone, since places do not depend on files.
-/
theorem doomed_iff {store : DirectoryStore} {before after : FileTree} {path : FilePath}
    {names : List String} {content : FileContent}
    (addresses : before.Addresses (store.root.join path.text) names)
    (forth : before.KeepsDirectories after) (back : after.KeepsDirectories before)
    (kept
      : (∀ stale ∈ store.stale.map fun entry => store.root.join entry.path.text,
          ¬ before.Addresses stale names)
        → after.node? names = some (.file content))
    : Doomed store.root store.previous store.current after path
      ↔ ∃ stale ∈ store.stale.map fun entry => store.root.join entry.path.text,
          before.Addresses stale names := by
  have place := (addresses.mono forth).place_eq
  constructor
  · rintro ⟨recorded, member, dropped, same⟩
    by_contra none
    -- The file is still there, so the recorded path that leads to it is a stale one.
    have held := kept fun stale member leads => none ⟨stale, member, leads⟩
    rw [place, held] at same
    have leads := (addresses_of_place same (by simp) (by simp)).1.mono back
    have inStale : recorded.2 ∈ store.stale := mem_stale_iff.mpr ⟨recorded, member, dropped, rfl⟩
    exact none ⟨_, List.mem_map.mpr ⟨recorded.2, inStale, rfl⟩, leads⟩
  · rintro ⟨_, listed, leads⟩
    obtain ⟨_, inStale, rfl⟩ := List.mem_map.mp listed
    obtain ⟨recorded, member, dropped, rfl⟩ := mem_stale_iff.mp inStale
    refine ⟨recorded, member, dropped, ?_⟩
    rw [place, (leads.mono forth).place_eq]

/-- What finishing leaves of the files of a run: a doomed one is removed, and every other one has the
content that was written last under its name. The manifest goes beside the files, so only the removal
of stale entries can have touched this one.
-/
theorem Records.readText_of_finish {base : List String} {artifacts : List Artifact}
    {store : DirectoryStore} {tree : FileTree} (records : Records base artifacts (store, tree))
    {manifest : Manifest} (finished : (store.finish tree).result = .ok manifest)
    {artifact : Artifact} (isLast : LastOfItsName artifacts artifact)
    : (store.finish tree).state.readText (store.root.join artifact.relativePath.text)
      = if Doomed store.root store.previous manifest (store.finish tree).state
          artifact.relativePath
        then .error .absent
        else .ok artifact.content := by
  obtain ⟨forth, back⟩ := keepsDirectories_of_finish finished
  obtain ⟨rfl, cleared, place, clears, manifestLeads, alters⟩ := clears_of_finish finished
  obtain ⟨addresses, held⟩ := records.stored artifact isLast
  have reaches := FileTree.follow_directory_mono records.reaches clears.directories
  -- The manifest itself goes beside the files, not over one of them.
  have ownName : (FilePath.mk manifestName).steps = [manifestName].map .name :=
    isSegment_manifestName.steps_eq
  obtain rfl : place = base ++ [manifestName] :=
    manifestLeads.leads.eq_append_of_join reaches ownName (by simp)
  have apart : base ++ artifact.pathNames ≠ base ++ [manifestName] := by
    intro same
    have ends := congrArg List.getLast? (List.append_cancel_left same)
    exact fileName_ne_manifestName artifact (by simpa [Artifact.pathNames] using ends)
  have kept
      (none
        : ∀ stale ∈ store.stale.map fun entry => store.root.join entry.path.text,
            ¬ tree.Addresses stale (base ++ artifact.pathNames))
      : (store.finish tree).state.node? (base ++ artifact.pathNames)
        = some (.file (.text artifact.content)) := by
    rw [alters.elsewhere _ apart, clears.kept _ none, held]
  have doomed := doomed_iff addresses forth back kept
  split
  · rename_i lost
    obtain ⟨path, member, leads⟩ := doomed.mp lost
    refine (addresses.mono forth).readText_eq_absent ?_
    rw [alters.elsewhere _ apart]
    exact clears.gone _ path member leads (by simp [held])
  · rename_i spared
    refine readText_eq_ok_iff.mpr ⟨_, addresses.mono forth, kept ?_⟩
    intro path member leads
    exact spared (doomed.mpr ⟨path, member, leads⟩)

end Wiring.DirectoryStore
