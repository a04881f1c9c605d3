import Wiring.Proofs.Answers
import Wiring.Proofs.Manifest.RoundTrip
import Wiring.Proofs.Store.Finishing

/-! Runs one after the other on one directory. Each reads the manifest that the one before it wrote,
so what finishing removes is known from the two manifests alone. A file that was just written is
removed with the stale ones where its name is new and its path is not.
-/

namespace Wiring.DirectoryStore

open FileTree

-----------------------------------------------------------------------------------------
-- What a run records
-----------------------------------------------------------------------------------------

/-- A file that is not written leaves all as it was. -/
theorem writeFile_of_error {store : DirectoryStore} {tree : FileTree} {path : FilePath}
    {artifact : Artifact} {failure : Failure}
    (refused : (store.writeFile tree path artifact).result = .error failure)
    : (store.writeFile tree path artifact).state = (store, tree) := by
  unfold writeFile at refused ⊢
  cases right : tree.holds path artifact.content with
  | true => simp [right, Reply.telling, Reply.done] at refused
  | false =>
      simp only [right] at refused ⊢
      cases wrote : tree.write path (.text artifact.content) with
      | ok written => simp [wrote, Reply.telling, Reply.done] at refused
      | error fault => rfl

/-- An artifact that is not taken leaves the store as it was, though directories may be new, by the
places at which it can be refused.
-/
theorem write_of_error {store : DirectoryStore} {tree : FileTree} {artifact : Artifact}
    {failure : Failure} (refused : (write (store, tree) artifact).result = .error failure)
    : (write (store, tree) artifact).state.1 = store
      ∧ tree.AddsDirectories (write (store, tree) artifact).state.2 := by
  unfold write at refused ⊢
  cases clash : store.clash? artifact with
  | some failure =>
      simp only [clash]
      exact ⟨rfl, .refl tree⟩
  | none =>
      simp only [clash] at refused ⊢
      cases above : (store.root.join artifact.relativePath.text).parent? with
      | none =>
          simp only [above] at refused ⊢
          rw [writeFile_of_error refused]
          exact ⟨rfl, .refl tree⟩
      | some parent =>
          simp only [above] at refused ⊢
          have more := addsDirectories_ensureDirectory tree parent
          rcases made : tree.ensureDirectory parent with ⟨middle, _ | _⟩
          · rw [made] at more
            exact ⟨rfl, more⟩
          · simp only [made] at refused more ⊢
            rw [writeFile_of_error refused]
            exact ⟨rfl, more⟩

/-- What no artifact changes, taken or not: where the store is, that its records ascend by name, and
that directories stay.
-/
structure Continues (before after : DirectoryStore × FileTree) : Prop where
  root : after.1.root = before.1.root
  ascending
    : before.1.current.artifacts.entries.Pairwise (·.1 < ·.1)
      → after.1.current.artifacts.entries.Pairwise (·.1 < ·.1)
  directories : before.2.KeepsDirectories after.2

/-- Each state continues itself. -/
theorem Continues.refl (state : DirectoryStore × FileTree) : Continues state state :=
  ⟨rfl, id, .refl state.2⟩

/-- Continuing composes, field by field. -/
theorem Continues.trans {before middle after : DirectoryStore × FileTree}
    (first : Continues before middle) (second : Continues middle after)
    : Continues before after :=
  ⟨second.root.trans first.root, second.ascending ∘ first.ascending,
    first.directories.trans second.directories⟩

/-- Writing one artifact continues a state: a refusal leaves the records, and an insertion keeps them
ascending.
-/
theorem continues_write (state : DirectoryStore × FileTree) (artifact : Artifact)
    : Continues state (write state artifact).state := by
  obtain ⟨store, tree⟩ := state
  cases result : (write (store, tree) artifact).result with
  | error failure =>
      obtain ⟨same, more⟩ := write_of_error result
      refine ⟨congrArg DirectoryStore.root same, ?_, more.kept.keepsDirectories⟩
      rw [same]
      exact id
  | ok value =>
      obtain ⟨_, root, _, recorded, _, _, deposits⟩ := files_of_write result
      refine ⟨root, fun ascending => ?_, deposits.directories⟩
      rw [recorded, Catalog.insert, Catalog.insertInto_eq_insertBy]
      exact Ascending.pairwise_insertBy _ ascending

/-- The state after writing artifacts in order, whether or not they were taken. -/
def writeAll (state : DirectoryStore × FileTree) (artifacts : List Artifact)
    : DirectoryStore × FileTree :=
  artifacts.foldl (fun state artifact => (write state artifact).state) state

/-- Nor do any number of artifacts change that, by induction on them. -/
theorem continues_writeAll (state : DirectoryStore × FileTree) (artifacts : List Artifact)
    : Continues state (writeAll state artifacts) := by
  induction artifacts generalizing state with
  | nil => exact .refl state
  | cons artifact rest ih => exact (continues_write state artifact).trans (ih _)

-----------------------------------------------------------------------------------------
-- Runs in order
-----------------------------------------------------------------------------------------

/-- One run from beginning to end, whether or not the store takes all of the artifacts. -/
def run (root : FilePath) (tree : FileTree) (artifacts : List Artifact) : Reply FileTree Manifest :=
  (openAt root tree).andThen fun tree store =>
    let (store, tree) := writeAll (store, tree) artifacts
    store.finish tree

/-- What completed runs have left: the manifest of the last one of them, and the tree. Before the
first run there is no manifest.
-/
inductive LeftByRuns (root : FilePath) : Manifest → FileTree → Prop
  | nothing {tree}
    (absent : (tree.ensureDirectory root).1.readText (manifestPath root) = .error .absent)
    : LeftByRuns root {} tree
  | run {previous tree artifacts manifest} (before : LeftByRuns root previous tree)
    (completed : (run root tree artifacts).result = .ok manifest)
    : LeftByRuns root manifest (run root tree artifacts).state

variable {root : FilePath} {tree : FileTree} {manifest : Manifest} {store : DirectoryStore}

/-- A run that completes opened its store, and finished it after all of the artifacts. -/
theorem run_eq_ok {artifacts : List Artifact}
    (completed : (run root tree artifacts).result = .ok manifest)
    : ∃ store,
        (openAt root tree).result = .ok store
        ∧ ∃ last,
            writeAll (store, (openAt root tree).state) artifacts = last
            ∧ (last.1.finish last.2).result = .ok manifest
            ∧ (run root tree artifacts).state = (last.1.finish last.2).state := by
  unfold run at completed ⊢
  rcases opened : openAt root tree with ⟨tree, events, _ | store⟩
  · simp [opened, Reply.andThen] at completed
  · simp only [opened, Reply.andThen, Reply.telling] at completed ⊢
    exact ⟨store, rfl, _, rfl, completed, rfl⟩

/-- A store that finishes leaves its manifest to be read. -/
theorem readText_of_finish (finished : (store.finish tree).result = .ok manifest)
    : (store.finish tree).state.readText (manifestPath store.root) = .ok manifest.text := by
  obtain ⟨rfl, cleared, names, _, addresses, alters⟩ := clears_of_finish finished
  exact readText_eq_ok_iff.mpr ⟨names, addresses.mono alters.keepsDirectories, alters.here⟩

/-- What a store leaves that has been opened, and goes on until it finishes, opens again and has the
very manifest that the store ended with.
-/
theorem openAt_of_finish {last : DirectoryStore × FileTree}
    (opened : (openAt root tree).result = .ok store)
    (continues : Continues (store, (openAt root tree).state) last)
    (finished : (last.1.finish last.2).result = .ok manifest)
    : openAt root (last.1.finish last.2).state
      = .done (last.1.finish last.2).state { root, previous := manifest } := by
  obtain ⟨present, ensured, previous, _, rfl⟩ := openAt_eq_ok opened
  have sameRoot : last.1.root = root := continues.root
  have ascending : manifest.artifacts.entries.Pairwise (·.1 < ·.1) := by
    rw [(clears_of_finish finished).1]
    exact continues.ascending .nil
  -- No step of the run takes directories away, so opening finds the root and adds nothing.
  have kept : (tree.ensureDirectory root).1.KeepsDirectories (last.1.finish last.2).state := by
    rw [← present]
    exact continues.directories.trans (keepsDirectories_of_finish finished).1
  have read := readText_of_finish finished
  rw [sameRoot] at read
  rw [openAt, ensureDirectory_of_keepsDirectories ensured kept]
  simp only [loadManifest, read, Manifest.ofText?_text ascending, Option.getD_some]

/-- What a run leaves opens again. -/
theorem openAt_run {artifacts : List Artifact}
    (completed : (run root tree artifacts).result = .ok manifest)
    : openAt root (run root tree artifacts).state
      = .done (run root tree artifacts).state { root, previous := manifest } := by
  obtain ⟨store, opened, last, rfl, finished, after⟩ := run_eq_ok completed
  rw [after]
  exact openAt_of_finish opened (continues_writeAll _ artifacts) finished

/-- A run reads the manifest that the run before it wrote. -/
theorem LeftByRuns.previous_eq (left : LeftByRuns root manifest tree)
    (opened : (openAt root tree).result = .ok store)
    : store.previous = manifest := by
  cases left with
  | nothing absent =>
      obtain ⟨_, _, previous, loaded, rfl⟩ := openAt_eq_ok opened
      obtain rfl : previous = none := by simpa [loadManifest, absent] using loaded.symm
      rfl
  | run _ completed =>
      rw [openAt_run completed] at opened
      obtain rfl := Except.ok.inj opened
      rfl

-----------------------------------------------------------------------------------------
-- What the last of several runs leaves
-----------------------------------------------------------------------------------------

/-- The previous run recorded the path under a name that this run does not have. -/
def Renamed (previous manifest : Manifest) (path : FilePath) : Prop :=
  ∃ recorded ∈ previous.artifacts.entries,
    manifest.artifacts.contains recorded.1 = false ∧ recorded.2.path = path

instance (previous manifest : Manifest) (path : FilePath)
    : Decidable (Renamed previous manifest path) :=
  inferInstanceAs (Decidable (∃ recorded ∈ _, _ ∧ _))

/-- All recorded paths are those of artifacts with proper names. -/
def ProperlyNamed (manifest : Manifest) : Prop :=
  ∀ recorded ∈ manifest.artifacts.entries,
    ∃ artifact : Artifact, artifact.IsNamed ∧ recorded.2.path = artifact.relativePath

/-- Where the previous manifest is properly named, a file is doomed only by its own path. -/
theorem Records.doomed_iff_renamed {base : List String} {artifacts : List Artifact}
    (records : Records base artifacts (store, tree)) {after : FileTree}
    (forth : tree.KeepsDirectories after) (back : after.KeepsDirectories tree)
    {previous manifest : Manifest} (named : ProperlyNamed previous) {artifact : Artifact}
    (isLast : LastOfItsName artifacts artifact)
    : Doomed store.root previous manifest after artifact.relativePath
      ↔ Renamed previous manifest artifact.relativePath := by
  obtain ⟨addresses, held⟩ := records.stored artifact isLast
  constructor
  · rintro ⟨recorded, member, dropped, samePlace⟩
    obtain ⟨other, otherNamed, path⟩ := named recorded member
    have noDirectory : after.node? (base ++ artifact.pathNames) ≠ some .directory := by
      intro present
      simp [back _ present] at held
    rw [path, (addresses.mono forth).place_eq] at samePlace
    -- Each path goes below the root by its own names, so one place means the same names.
    have same : base ++ artifact.pathNames = base ++ other.pathNames :=
      (leads_of_place samePlace noDirectory).eq_append_of_join
        (follow_directory_mono records.reaches forth) otherNamed.goesDown.steps_relativePath
        (by simp [Artifact.pathNames])
    refine ⟨recorded, member, dropped, path.trans ?_⟩
    exact Artifact.relativePath_eq_of_pathNames_eq (List.append_cancel_left same).symm
  · rintro ⟨recorded, member, dropped, same⟩
    exact ⟨recorded, member, dropped, by rw [same]⟩

/-- A run in a directory that other runs have left: its store opens, takes all of the artifacts, and
finishes.
-/
structure FollowsRuns (root : FilePath) (previous : Manifest) (tree : FileTree)
    (artifacts : List Artifact) (manifest : Manifest) (after : FileTree)
    : Prop where
  left : LeftByRuns root previous tree
  named : ∀ artifact ∈ artifacts, artifact.IsNamed
  completed
    : ∃ store last,
        (openAt root tree).result = .ok store
        ∧ write.Takes (store, (openAt root tree).state) artifacts last
        ∧ (last.1.finish last.2).result = .ok manifest
        ∧ (last.1.finish last.2).state = after

/-- Such a run has records to show when it finishes. -/
theorem FollowsRuns.exists_records {previous manifest : Manifest} {after : FileTree}
    {artifacts : List Artifact} (follows : FollowsRuns root previous tree artifacts manifest after)
    : ∃ base last,
        last.1.root = root
        ∧ last.1.previous = previous
        ∧ Records base artifacts last
        ∧ (last.1.finish last.2).result = .ok manifest
        ∧ (last.1.finish last.2).state = after := by
  obtain ⟨left, named, store, last, opened, takes, finished, ended⟩ := follows
  obtain ⟨base, empty⟩ := records_of_openAt opened
  obtain ⟨sameRoot, samePrevious⟩ := eq_of_takes takes
  have down : ∀ artifact ∈ artifacts, artifact.GoesDown :=
    fun artifact member => (named artifact member).goesDown
  have records : Records base artifacts last := empty.takes (by simpa using down) takes
  refine ⟨base, last, sameRoot.trans ?_, samePrevious.trans (left.previous_eq opened), records,
    finished, ended⟩
  obtain ⟨_, _, _, _, rfl⟩ := openAt_eq_ok opened
  rfl

/-- What such a run leaves of its files. Each entry of its manifest is that of the last artifact
written under its name, and goes below the root. Its file holds the content of that artifact, unless
the run before had recorded a path to the same place under a name that is gone; then there is no such
file. Among artifacts with proper names only the same path leads to the same place. The records of the
run say what was stored, and finishing removes what is doomed.
-/
theorem FollowsRuns.file_of_entry {previous manifest : Manifest} {after : FileTree}
    {artifacts : List Artifact} (follows : FollowsRuns root previous tree artifacts manifest after)
    : ∀ name entry,
        (name, entry) ∈ manifest.artifacts.entries
        → ∃ artifact,
            LastOfItsName artifacts artifact
            ∧ artifact.qualifiedName = name
            ∧ entry = .ofArtifact artifact
            ∧ (∀ step ∈ entry.path.steps, ∃ directory, step = .name directory)
            ∧ after.readText (root.join entry.path.text)
              = (if Doomed root previous manifest after entry.path then .error .absent
                else .ok artifact.content)
            ∧ (ProperlyNamed previous
              → (Doomed root previous manifest after entry.path
                ↔ Renamed previous manifest entry.path)) := by
  intro name entry member
  obtain ⟨base, last, rfl, rfl, records, finished, rfl⟩ := follows.exists_records
  obtain ⟨forth, back⟩ := keepsDirectories_of_finish finished
  obtain rfl : manifest = last.1.current := (clears_of_finish finished).1
  obtain ⟨artifact, isLast, rfl, rfl⟩ := (records.recorded name entry).mp member
  refine ⟨artifact, isLast, rfl, rfl, ?_, ?_, ?_⟩
  · intro step inPath
    have named := follows.named artifact isLast.mem
    rw [ManifestEntry.path_ofArtifact, named.goesDown.steps_relativePath] at inPath
    obtain ⟨directory, _, rfl⟩ := List.mem_map.mp inPath
    exact ⟨directory, rfl⟩
  · rw [ManifestEntry.path_ofArtifact]
    exact records.readText_of_finish finished isLast
  · intro before
    rw [ManifestEntry.path_ofArtifact]
    exact records.doomed_iff_renamed forth back before isLast

/-- A run of one artifact follows others if its store opens, takes the artifact and finishes. -/
theorem followsRuns_of_one {previous : Manifest} {artifact : Artifact}
    (left : LeftByRuns root previous tree) (opened : openAt root tree = .done tree store)
    (named : artifact.IsNamed) {last : DirectoryStore × FileTree}
    (taken : (write (store, tree) artifact).result = .ok ())
    (wrote : (write (store, tree) artifact).state = last)
    (finished : (last.1.finish last.2).result = .ok manifest)
    : FollowsRuns root previous tree [artifact] manifest (last.1.finish last.2).state := by
  subst wrote
  refine ⟨left, by simpa using named, store, _, congrArg Reply.result opened, ?_, finished, rfl⟩
  rw [opened]
  exact .cons taken .nil

/-- The store of a first run below `out`. -/
def storeOfOut : DirectoryStore :=
  { root := ⟨"out"⟩, previous := {} }

/-- The store of a first run opens over no files. -/
theorem openAt_out : (openAt ⟨"out"⟩ {}).result = .ok storeOfOut :=
  eq_ok_of_toOption_eq_some (by decide +kernel)

-- Two runs of factories. The second one has a client only, and may spell its name as it likes.

/-- A factory of the module `crate::net`. -/
def netFactory (name content : String) : Artifact where
  home := "crate::net"
  name := name
  kind := .factory
  content := content
  origins := ⟨false, [⟨"src/net.rs"⟩]⟩

/-- The record of artifacts, each under a name of its own. -/
def recording (artifacts : List Artifact) : Manifest :=
  ⟨.ofList (artifacts.map fun artifact => (artifact.qualifiedName, .ofArtifact artifact))⟩

/-- The artifacts of the first run. -/
def firstFactories : List Artifact :=
  [netFactory "HTTPClient" "one", netFactory "Pool" "pool"]

/-- What the first run leaves in an empty tree. -/
def firstTree : FileTree :=
  (run ⟨"out"⟩ {} firstFactories).state

/-- The store of a second run, which knows what the first one recorded. -/
def secondStore : DirectoryStore :=
  { root := ⟨"out"⟩, previous := recording firstFactories }

/-- The second run with one artifact. -/
def secondState (artifact : Artifact) : DirectoryStore × FileTree :=
  (write (secondStore, firstTree) artifact).state

/-- The end of the second run. -/
def secondReply (artifact : Artifact) : Reply FileTree Manifest :=
  (secondState artifact).1.finish (secondState artifact).2

/-- The first run records paths of properly named artifacts alone. -/
theorem properlyNamed_firstFactories : ProperlyNamed (recording firstFactories) := by
  intro recorded member
  have named : ∀ artifact ∈ firstFactories, artifact.IsNamed := by decide +kernel
  have paths
      : ∀ recorded ∈ (recording firstFactories).artifacts.entries,
          ∃ artifact ∈ firstFactories, recorded.2.path = artifact.relativePath := by
    decide +kernel
  obtain ⟨artifact, among, path⟩ := paths recorded member
  exact ⟨artifact, named artifact among, path⟩

/-- What the runs come to, in one go, since each goes on from the first one's files. -/
theorem results_of_runs
    : (run ⟨"out"⟩ {} firstFactories).result.toOption = some (recording firstFactories)
      ∧ (∀ artifact ∈ [netFactory "HTTPClient" "two", netFactory "HttpClient" "two"],
          artifact.IsNamed
          ∧ (write (secondStore, firstTree) artifact).result.toOption = some ()
          ∧ (secondReply artifact).result.toOption = some (recording [artifact]))
      ∧ ((secondReply (netFactory "HttpClient" "two")).state.readText
            (FilePath.join ⟨"out"⟩
              (netFactory "HttpClient" "two").relativePath.text)).toOption
          ≠ some "two" := by
  decide +kernel

/-- Under either name, the second run follows the first one. -/
theorem followsRuns_secondReply {artifact : Artifact}
    (among : artifact ∈ [netFactory "HTTPClient" "two", netFactory "HttpClient" "two"])
    : FollowsRuns ⟨"out"⟩ (recording firstFactories) firstTree [artifact] (recording [artifact])
        (secondReply artifact).state := by
  obtain ⟨first, second, _⟩ := results_of_runs
  obtain ⟨named, taken, finished⟩ := second artifact among
  have completed : (run ⟨"out"⟩ {} firstFactories).result = .ok (recording firstFactories) :=
    eq_ok_of_toOption_eq_some first
  have opened : openAt ⟨"out"⟩ firstTree = .done firstTree secondStore := openAt_run completed
  have left : LeftByRuns ⟨"out"⟩ (recording firstFactories) firstTree :=
    .run (.nothing (by rfl)) completed
  exact followsRuns_of_one left opened named (eq_ok_of_toOption_eq_some taken) rfl
    (eq_ok_of_toOption_eq_some finished)

/-- Witness: under its old name, the client is updated and its file is there. -/
theorem FollowsRuns.file_of_entry_updated
    : FollowsRuns ⟨"out"⟩ (recording firstFactories) firstTree [netFactory "HTTPClient" "two"]
        (recording [netFactory "HTTPClient" "two"])
        (secondReply (netFactory "HTTPClient" "two")).state
      ∧ (secondReply (netFactory "HTTPClient" "two")).state.readText ⟨"out/net/http_client.rs"⟩
        = .ok "two" := by
  have follows : FollowsRuns _ _ _ [netFactory "HTTPClient" "two"] _ _ :=
    followsRuns_secondReply List.mem_cons_self
  refine ⟨follows, ?_⟩
  obtain ⟨artifact, last, _, _, _, file, doomed⟩ :=
    follows.file_of_entry _ _ (List.mem_singleton.mpr rfl)
  obtain rfl := List.mem_singleton.mp last.mem
  have spared
      : ¬ Renamed (recording firstFactories) (recording [netFactory "HTTPClient" "two"])
          (netFactory "HTTPClient" "two").relativePath := by
    decide +kernel
  have path
      : FilePath.join ⟨"out"⟩ (netFactory "HTTPClient" "two").relativePath.text
        = ⟨"out/net/http_client.rs"⟩ := by
    decide +kernel
  rw [ManifestEntry.path_ofArtifact] at file doomed
  rw [path, if_neg fun lost => spared ((doomed properlyNamed_firstFactories).mp lost)] at file
  exact file

/-- A second spelling of a name loses the file that was just written under it. -/
theorem FollowsRuns.file_lost
    : ∃ previous tree artifact manifest after,
        FollowsRuns ⟨"out"⟩ previous tree [artifact] manifest after
        ∧ (artifact.qualifiedName, ManifestEntry.ofArtifact artifact) ∈ manifest.artifacts.entries
        ∧ after.readText (FilePath.join ⟨"out"⟩ artifact.relativePath.text)
          ≠ .ok artifact.content := by
  refine ⟨_, _, netFactory "HttpClient" "two", _, _,
    followsRuns_secondReply (List.mem_cons_of_mem _ List.mem_cons_self),
    List.mem_singleton.mpr rfl, ?_⟩
  intro read
  exact results_of_runs.2.2 (congrArg Except.toOption read)

end Wiring.DirectoryStore
