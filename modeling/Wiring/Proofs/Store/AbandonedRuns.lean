import Wiring.Proofs.Store.Shadows

/-! Abandoned runs. A run that is dropped before it finishes has written files, and no manifest lists
them. A later run that completes ends as if the abandoned ones had never been, but for the files that
they wrote: each of those stays, unless the later run wrote it again or the manifest that it found had
an entry for it which it dropped.
-/

namespace Wiring.DirectoryStore

open FileTree

/-- Runs that were abandoned one after the other, each in whatever state it had reached: all that they
had taken, and the tree that they left.
-/
inductive Abandoned (root : FilePath) (start : FileTree) : List Artifact → FileTree → Prop
  | nothing : Abandoned root start [] start
  | further {dropped tree taken state} (before : Abandoned root start dropped tree)
    (reached : Reached root tree taken state)
    : Abandoned root start (dropped ++ taken) state.2

variable {root : FilePath} {base names : List String} {content : FileContent}
  {start plain tree after later : FileTree} {store : DirectoryStore}
  {state : DirectoryStore × FileTree} {artifact : Artifact}
  {earlier dropped taken artifacts : List Artifact} {previous manifest : Manifest}

-----------------------------------------------------------------------------------------
-- Runs that complete
-----------------------------------------------------------------------------------------

/-- A run that comes to its end: the artifacts that it has taken, and the manifest and the tree that it
leaves. It may have been refused others.
-/
def Completed (root : FilePath) (start : FileTree) (artifacts : List Artifact) (manifest : Manifest)
    (after : FileTree)
    : Prop :=
  ∃ store tree,
    Reached root start artifacts (store, tree)
    ∧ (store.finish tree).result = .ok manifest
    ∧ (store.finish tree).state = after

/-- Whatever a run has reached, it continues from the opened store, by induction on its writes. -/
theorem Reached.continues (reached : Reached root start artifacts state)
    : ∃ store,
        (openAt root start).result = .ok store
        ∧ Continues (store, (openAt root start).state) state := by
  induction reached with
  | opened opened => exact ⟨_, opened, .refl _⟩
  | taken _ _ ih | refused _ _ ih =>
      obtain ⟨store, opened, continues⟩ := ih
      exact ⟨store, opened, continues.trans (continues_write _ _)⟩
  | broken _ more ih =>
      obtain ⟨store, opened, continues⟩ := ih
      exact ⟨store, opened, continues.trans ⟨rfl, id, more.kept.keepsDirectories⟩⟩

/-- No write moves the store. -/
theorem Reached.root_eq (reached : Reached root start artifacts state) : state.1.root = root := by
  obtain ⟨store, opened, continues⟩ := reached.continues
  obtain ⟨_, _, _, _, rfl⟩ := openAt_eq_ok opened
  exact continues.root

/-- The records ascend, starting from none. -/
theorem Reached.ascending (reached : Reached root start artifacts state)
    : state.1.current.artifacts.entries.Pairwise (·.1 < ·.1) := by
  obtain ⟨store, opened, continues⟩ := reached.continues
  obtain ⟨_, _, _, _, rfl⟩ := openAt_eq_ok opened
  exact continues.ascending .nil

/-- Each path that is recorded leads somewhere, by induction on the way to the state. -/
theorem Reached.located (reached : Reached root start artifacts state)
    : ∀ recorded ∈ state.1.current.artifacts.entries,
        ∃ names, state.2.Addresses (root.join recorded.2.path.text) names := by
  induction reached with
  | opened opened =>
      obtain ⟨_, _, _, _, rfl⟩ := openAt_eq_ok opened
      exact fun _ member => absurd member List.not_mem_nil
  | @taken artifacts state artifact before taken ih =>
      obtain ⟨_, _, _, inserted, _, names, deposits⟩ := files_of_write taken
      intro recorded member
      rw [inserted, Catalog.insert, Catalog.insertInto_eq_insertBy,
        Ascending.mem_insertBy before.ascending] at member
      rcases member with rfl | ⟨member, _⟩
      · rw [ManifestEntry.path_ofArtifact, ← before.root_eq]
        exact ⟨names, deposits.addresses⟩
      · obtain ⟨others, leads⟩ := ih recorded member
        exact ⟨others, leads.mono deposits.directories⟩
  | @refused artifacts state artifact failure _ refused ih =>
      obtain ⟨same, more⟩ := write_of_error refused
      rw [same]
      intro recorded member
      obtain ⟨others, leads⟩ := ih recorded member
      exact ⟨others, leads.mono more.kept.keepsDirectories⟩
  | broken _ more ih =>
      intro recorded member
      obtain ⟨others, leads⟩ := ih recorded member
      exact ⟨others, leads.mono more.kept.keepsDirectories⟩

/-- A store that has just been opened over its own tree has reached that tree. -/
theorem reached_of_openAt (opens : openAt root start = .done start store)
    : Reached root start [] (store, start) := by
  have reached := Reached.opened (congrArg Reply.result opens)
  rwa [opens] at reached

/-- A run that takes all of its artifacts reaches its last state. -/
theorem Reached.takes {last : DirectoryStore × FileTree}
    (reached : Reached root start artifacts state)
    (takes : DirectoryStore.write.Takes state taken last)
    : Reached root start (artifacts ++ taken) last := by
  induction takes generalizing artifacts with
  | nil => rwa [List.append_nil]
  | cons taken _ ih =>
      rw [List.append_cons]
      exact ih (.taken reached taken)

/-- A store that finishes completes its run. -/
theorem Reached.completed (reached : Reached root start artifacts state)
    (finished : (state.1.finish state.2).result = .ok manifest)
    : Completed root start artifacts manifest (state.1.finish state.2).state :=
  ⟨state.1, state.2, reached, finished, rfl⟩

/-- A run that takes all of its artifacts is completed by the same finish, as it comes to the same
state.
-/
theorem completed_of_takes {last : DirectoryStore × FileTree}
    (opened : (openAt root start).result = .ok store)
    (takes : write.Takes (store, (openAt root start).state) artifacts last)
    (completed : (run root start artifacts).result = .ok manifest)
    : Completed root start artifacts manifest (run root start artifacts).state := by
  obtain ⟨sameResult, sameState⟩ := run_of_takes opened takes
  rw [sameResult] at completed
  rw [sameState]
  exact ((Reached.opened opened).takes takes).completed completed

/-- What a completed run leaves opens again, with the manifest of the run. -/
theorem Completed.openAt_eq (completed : Completed root start artifacts manifest after)
    : openAt root after = .done after { root, previous := manifest } := by
  obtain ⟨store, tree, reached, finished, rfl⟩ := completed
  obtain ⟨_, opened, continues⟩ := reached.continues
  exact openAt_of_finish opened continues finished

/-- Its manifest stands in the file for it. -/
theorem Completed.readText_eq (completed : Completed root start artifacts manifest after)
    : after.readText (manifestPath root) = .ok manifest.text := by
  obtain ⟨store, tree, reached, finished, rfl⟩ := completed
  rw [← reached.root_eq]
  exact readText_of_finish finished

/-- Every recorded path leads somewhere, since its artifact was written there and finishing keeps
directories.
-/
theorem Completed.located (completed : Completed root start artifacts manifest after)
    : ∀ recorded ∈ manifest.artifacts.entries,
        ∃ names, after.Addresses (root.join recorded.2.path.text) names := by
  obtain ⟨store, tree, reached, finished, rfl⟩ := completed
  intro recorded member
  rw [(clears_of_finish finished).1] at member
  obtain ⟨names, leads⟩ := reached.located recorded member
  exact ⟨names, leads.mono (keepsDirectories_of_finish finished).1⟩

-----------------------------------------------------------------------------------------
-- Runs that do not
-----------------------------------------------------------------------------------------

/-- The artifact is the last one among the artifacts whose path leads to the place. -/
def LastAt (tree : FileTree) (root : FilePath) (artifacts : List Artifact) (artifact : Artifact)
    (names : List String)
    : Prop :=
  ∃ front back,
    artifacts = front ++ artifact :: back
    ∧ tree.Addresses (root.join artifact.relativePath.text) names
    ∧ ∀ other ∈ back, ¬ tree.Addresses (root.join other.relativePath.text) names

/-- What artifacts leave at the places that their paths lead to. -/
def LeftBy (tree : FileTree) (root : FilePath) (artifacts : List Artifact) (names : List String)
    (content : FileContent)
    : Prop :=
  ∃ artifact, LastAt tree root artifacts artifact names ∧ content = .text artifact.content

/-- A run without artifacts leaves nothing. -/
theorem leftBy_nil : LeftBy tree root [] = fun _ _ => False := by
  funext names content
  simp [LeftBy, LastAt]

/-- One more artifact is the last at its own place, and changes nothing at others. -/
theorem lastAt_concat {other : Artifact}
    : LastAt tree root (artifacts ++ [artifact]) other names
      ↔ other = artifact ∧ tree.Addresses (root.join artifact.relativePath.text) names
        ∨ LastAt tree root artifacts other names
          ∧ ¬ tree.Addresses (root.join artifact.relativePath.text) names := by
  constructor
  · rintro ⟨front, back, split, leads, last⟩
    rcases List.eq_nil_or_concat back with rfl | ⟨init, final, rfl⟩
    · obtain ⟨rfl, rfl⟩ := List.append_singleton_inj.mp split
      exact .inl ⟨rfl, leads⟩
    · rw [List.concat_eq_append, ← List.cons_append, ← List.append_assoc] at split
      obtain ⟨rfl, rfl⟩ := List.append_singleton_inj.mp split
      simp only [List.concat_eq_append, List.forall_mem_append, List.forall_mem_singleton] at last
      exact .inr ⟨⟨front, init, rfl, leads, last.1⟩, last.2⟩
  · rintro (⟨rfl, leads⟩ | ⟨⟨front, back, rfl, leads, last⟩, apart⟩)
    · exact ⟨artifacts, [], rfl, leads, by simp⟩
    · refine ⟨front, back ++ [artifact], by simp, leads, ?_⟩
      rw [List.forall_mem_append, List.forall_mem_singleton]
      exact ⟨last, apart⟩

/-- So what is left differs at its place alone. This is the shape that a single write has. -/
theorem leftBy_concat (addresses : tree.Addresses (root.join artifact.relativePath.text) names)
    : LeftBy tree root (artifacts ++ [artifact])
      = fun others found =>
          if others = names then found = .text artifact.content
          else LeftBy tree root artifacts others found := by
  funext others found
  have leads : tree.Addresses (root.join artifact.relativePath.text) others ↔ others = names :=
    ⟨fun again => again.unique addresses, fun same => same ▸ addresses⟩
  by_cases same : others = names
  · simp [LeftBy, lastAt_concat, addresses, same]
  · simp [LeftBy, lastAt_concat, leads, same]

/-- What an artifact leaves is no manifest. -/
theorem LeftBy.apart (left : LeftBy tree root artifacts names content)
    (manifestLeads : tree.Addresses (manifestPath root) names)
    : False := by
  obtain ⟨artifact, ⟨_, _, _, leads, _⟩, _⟩ := left
  obtain ⟨above, stem, steps⟩ := artifact.exists_steps_join root
  have ownName : (FilePath.mk manifestName).steps = [manifestName].map .name :=
    isSegment_manifestName.steps_eq
  have manifestSteps : (manifestPath root).steps = root.steps ++ [.name manifestName] := by
    rw [manifestPath, FilePath.steps_join root (FilePath.isPlain_of_steps ownName), ownName]
    rfl
  have last := leads.leads.getLast?_eq steps
  rw [manifestLeads.leads.getLast?_eq manifestSteps] at last
  have ends : (stem ++ ".rs").toList.getLast? = some 's' := by simp
  rw [← Option.some.inj last] at ends
  exact absurd ends (by decide)

/-- A run adds what it has taken, by induction on the way to its state. -/
theorem Reached.overlaid (reached : Reached root tree taken state)
    (overlaid
      : ∀ later, tree.KeepsDirectories later → Overlaid (LeftBy later root dropped) plain tree)
    : ∀ later,
        state.2.KeepsDirectories later
        → Overlaid (LeftBy later root (dropped ++ taken)) plain state.2 := by
  induction reached with
  | opened opened =>
      intro later keeps
      have more := addsDirectories_ensureDirectory tree root
      rw [← (openAt_eq_ok opened).1] at more
      rw [List.append_nil]
      exact (overlaid later (more.kept.keepsDirectories.trans keeps)).grown more
  | @taken artifacts state artifact before taken ih =>
      intro later keeps
      obtain ⟨middle, names, more, addresses, alters⟩ := exists_alters_of_write taken
      have kept := alters.keepsDirectories.trans keeps
      rw [before.root_eq] at addresses
      rw [← List.append_assoc, leftBy_concat (addresses.mono kept)]
      exact ((ih later (more.kept.keepsDirectories.trans kept)).grown more).deposit alters
  | @refused artifacts state artifact failure _ refused ih =>
      intro later keeps
      have more := (write_of_error refused).2
      exact (ih later (more.kept.keepsDirectories.trans keeps)).grown more
  | broken _ more ih =>
      intro later keeps
      exact (ih later (more.kept.keepsDirectories.trans keeps)).grown more

/-- What abandoned runs leave lies over the tree that they started from, by induction on them; later
directories do not change where it lies.
-/
theorem Abandoned.overlaid (abandoned : Abandoned root plain dropped tree)
    : ∀ later, tree.KeepsDirectories later → Overlaid (LeftBy later root dropped) plain tree := by
  induction abandoned with
  | nothing =>
      intro later _
      rw [leftBy_nil]
      exact .refl plain
  | further _ reached ih => exact reached.overlaid ih

/-- What was abandoned leaves the manifest as it was. The manifest is a file of the completed run, over
which nothing is left.
-/
theorem Abandoned.openAt_eq (abandoned : Abandoned root plain dropped tree)
    (first : Completed root start earlier previous plain)
    : openAt root tree = .done tree { root, previous } := by
  have overlaid := abandoned.overlaid tree (.refl tree)
  obtain ⟨names, leads, present⟩ := readText_eq_ok_iff.mp first.readText_eq
  replace leads := leads.mono overlaid.directories
  have read : tree.readText (manifestPath root) = .ok previous.text := by
    refine readText_eq_ok_iff.mpr ⟨names, leads, ?_⟩
    exact (overlaid.alike names (fun _ left => left.apart leads) _).mpr present
  have sameLoad
      : loadManifest tree (manifestPath root) = loadManifest plain (manifestPath root) := by
    simp only [loadManifest, read, first.readText_eq]
  have opened := first.openAt_eq
  obtain ⟨state, ensured, found, loaded, same⟩ := openAt_eq_ok (congrArg Reply.result opened)
  rw [opened] at state
  have there : tree.ensureDirectory root = (tree, true) := by
    refine ensureDirectory_of_keepsDirectories ensured ?_
    rw [← state]
    exact overlaid.directories
  rw [← state] at loaded
  change loadManifest plain (manifestPath root) = .ok found at loaded
  rw [openAt, there, same]
  simp only [sameLoad, loaded]

-----------------------------------------------------------------------------------------
-- A run that completes afterwards
-----------------------------------------------------------------------------------------

/-- What a run takes over files that were left over is taken without them, by induction on the way to
its state.
-/
theorem Reached.exists_shadow {leftover : FileTree → List String → FileContent → Prop}
    (reached : Reached root tree artifacts state) (opens : openAt root tree = .done tree store)
    (overlaid : ∀ later, tree.KeepsDirectories later → Overlaid (leftover later) plain tree)
    : ∃ shadow,
        DirectoryStore.write.Takes (store, plain) artifacts shadow
        ∧ ∀ later,
          state.2.KeepsDirectories later
          → Shadows
              (Apart later
                (artifacts.map fun artifact => root.join artifact.relativePath.text)
                (leftover later))
              shadow state := by
  induction reached with
  | opened opened =>
      rw [opens] at opened ⊢
      obtain rfl := Except.ok.inj opened
      refine ⟨_, .nil, fun later keeps => ?_⟩
      rw [List.map_nil, apart_nil]
      exact ⟨rfl, rfl, rfl, overlaid later keeps⟩
  | @taken artifacts state artifact before taken ih =>
      obtain ⟨shadow, takes, shadows⟩ := ih
      have continues := continues_write state artifact
      -- What is left over has to be said of the directories that are there in the end.
      obtain ⟨_, _, takenShadow, _⟩ := (shadows state.2 (.refl _)).write taken
      refine ⟨_, takes.concat takenShadow, fun later keeps => ?_⟩
      obtain ⟨names, addresses, _, after⟩ :=
        (shadows later (continues.directories.trans keeps)).write taken
      rw [before.root_eq] at addresses
      rw [List.map_append, List.map_singleton, apart_concat (addresses.mono keeps)]
      exact after
  | @refused artifacts state artifact failure _ refused ih =>
      obtain ⟨shadow, takes, shadows⟩ := ih
      obtain ⟨same, more⟩ := write_of_error refused
      refine ⟨shadow, takes, fun later keeps => ?_⟩
      obtain ⟨sameRoot, samePrevious, sameCurrent, overlaid⟩ :=
        shadows later (more.kept.keepsDirectories.trans keeps)
      rw [← same] at sameRoot samePrevious sameCurrent
      exact ⟨sameRoot, samePrevious, sameCurrent, overlaid.grown more⟩
  | broken _ more ih =>
      obtain ⟨shadow, takes, shadows⟩ := ih
      refine ⟨shadow, takes, fun later keeps => ?_⟩
      have shadows := shadows later (more.kept.keepsDirectories.trans keeps)
      exact { shadows with overlaid := shadows.overlaid.grown more }

/-- A file that abandoned runs have written, and that is there still: the run that completed wrote none
to its place, and dropped no entry whose path leads there.
-/
structure LeftOver (root : FilePath) (dropped artifacts : List Artifact)
    (previous manifest : Manifest) (after : FileTree) (names : List String) (content : FileContent)
    : Prop where
  written : LeftBy after root dropped names content
  unclaimed
    : ∀ artifact ∈ artifacts, ¬ after.Addresses (root.join artifact.relativePath.text) names
  unrecorded
    : ∀ recorded ∈ previous.artifacts.entries,
        manifest.artifacts.contains recorded.1 = false
        → ¬ after.Addresses (root.join recorded.2.path.text) names

/-- Seen from the store that completed, what is left over is apart from its artifacts and from all that
is stale to it.
-/
theorem leftOver_iff (manifestLeads : after.Addresses (manifestPath root) base)
    : LeftOver root dropped artifacts store.previous store.current after names content
      ↔ names ≠ base
        ∧ Apart after (store.stale.map fun entry => root.join entry.path.text)
            (Apart after (artifacts.map fun artifact => root.join artifact.relativePath.text)
              (LeftBy after root dropped))
            names content := by
  simp only [Apart, List.forall_mem_map, mem_stale_iff]
  constructor
  · rintro ⟨written, unclaimed, unrecorded⟩
    refine ⟨?_, ⟨written, unclaimed⟩, ?_⟩
    · rintro rfl
      exact written.apart manifestLeads
    · rintro _ ⟨recorded, member, dropped, rfl⟩
      exact unrecorded recorded member dropped
  · rintro ⟨_, ⟨written, unclaimed⟩, unrecorded⟩
    exact ⟨written, unclaimed, fun recorded member dropped =>
      unrecorded recorded.2 ⟨recorded, member, dropped, rfl⟩⟩

/-- Abandoned runs make no difference to what a later run takes and records. Where they start from what
a completed run has left, and a later run completes, the files are then those that it would have left
without them, but for what is left over of theirs. Run over the plain tree, the later run keeps a
shadow of itself, and in the end the two trees differ by what is left over.
-/
theorem Completed.files_after_abandoned (first : Completed root start earlier previous plain)
    (abandoned : Abandoned root plain dropped tree)
    (completed : Completed root tree artifacts manifest after)
    : (run root plain artifacts).result = .ok manifest
      ∧ ∀ names content,
          after.node? names = some (.file content)
          ↔ LeftOver root dropped artifacts previous manifest after names content
            ∨ (∀ other, ¬ LeftOver root dropped artifacts previous manifest after names other)
              ∧ (run root plain artifacts).state.node? names = some (.file content) := by
  obtain ⟨store, last, reached, finished, rfl⟩ := completed
  obtain ⟨shadow, takes, shadows⟩ :=
    reached.exists_shadow (abandoned.openAt_eq first) abandoned.overlaid
  have shadows := shadows _ (keepsDirectories_of_finish finished).1
  have continues := continues_writeAll ({ root, previous }, plain) artifacts
  rw [writeAll_of_takes takes] at continues
  obtain rfl : root = store.root := reached.root_eq.symm
  obtain rfl : previous = store.previous := (eq_of_takes takes).2.symm.trans shadows.previous
  -- The manifest and the stale files are where the first run has left them.
  obtain ⟨base, manifestLeads, _⟩ := readText_eq_ok_iff.mp first.readText_eq
  have manifestLeads := manifestLeads.mono continues.directories
  have located
      : ∀ entry ∈ store.stale,
          ∃ names, shadow.2.Addresses (store.root.join entry.path.text) names := by
    intro entry stale
    obtain ⟨recorded, member, _, rfl⟩ := mem_stale_iff.mp stale
    obtain ⟨names, leads⟩ := first.located recorded member
    exact ⟨names, leads.mono continues.directories⟩
  obtain ⟨finishes, overlaid⟩ := shadows.finish located manifestLeads finished
  have inTheEnd :=
    (manifestLeads.mono shadows.overlaid.directories).mono (keepsDirectories_of_finish finished).1
  obtain rfl : manifest = store.current := (clears_of_finish finished).1
  have opens := first.openAt_eq
  have takes
      : write.Takes ({ root := store.root, previous := store.previous },
          (openAt store.root plain).state) artifacts shadow := by
    rw [opens]
    exact takes
  obtain ⟨sameResult, sameState⟩ := run_of_takes (congrArg Reply.result opens) takes
  refine ⟨sameResult.trans finishes, fun names content => ?_⟩
  rw [sameState]
  exact (overlaid.congr fun names content => leftOver_iff inTheEnd).file_iff

-- After the two factories, a run writes one for a socket and is abandoned. The next one has a client
-- only.

/-- The tree of the abandoned run. -/
def socketTree : FileTree :=
  (write (secondStore, firstTree) (netFactory "Socket" "socket")).state.2

/-- The third run, after its one artifact. -/
def afterSocket : DirectoryStore × FileTree :=
  (write (secondStore, socketTree) (netFactory "HTTPClient" "two")).state

/-- What the runs come to, in one go, since each goes on from the files of the one before. -/
theorem results_of_socket
    : (write (secondStore, firstTree) (netFactory "Socket" "socket")).result.toOption = some ()
      ∧ (write (secondStore, socketTree) (netFactory "HTTPClient" "two")).result.toOption = some ()
      ∧ (afterSocket.1.finish afterSocket.2).result.toOption
        = some (recording [netFactory "HTTPClient" "two"])
      ∧ (afterSocket.1.finish afterSocket.2).state.node? ["out", "net", "socket.rs"]
        = some (.file (.text "socket"))
      ∧ (secondReply (netFactory "HTTPClient" "two")).state.node? ["out", "net", "socket.rs"]
        = none := by
  decide +kernel

/-- The first run completes. -/
theorem completed_firstFactories
    : Completed ⟨"out"⟩ {} firstFactories (recording firstFactories) firstTree := by
  obtain ⟨_, first, second⟩ := takes_firstFactories
  have takes : write.Takes (storeOfOut, (openAt ⟨"out"⟩ {}).state) firstFactories _ :=
    .cons (eq_ok_of_toOption_eq_some first) (.cons (eq_ok_of_toOption_eq_some second) .nil)
  rw [firstTree]
  exact completed_of_takes openAt_out takes (eq_ok_of_toOption_eq_some results_of_runs.1)

/-- The second run writes a socket and is dropped. -/
theorem abandoned_socket
    : Abandoned ⟨"out"⟩ firstTree [netFactory "Socket" "socket"] socketTree := by
  have reached : Reached ⟨"out"⟩ firstTree [] (secondStore, firstTree) :=
    reached_of_openAt completed_firstFactories.openAt_eq
  rw [socketTree]
  exact .further .nothing (.taken reached (eq_ok_of_toOption_eq_some results_of_socket.1))

/-- The third run completes over what the second one left. -/
theorem completed_afterSocket
    : Completed ⟨"out"⟩ socketTree [netFactory "HTTPClient" "two"]
        (recording [netFactory "HTTPClient" "two"])
        (afterSocket.1.finish afterSocket.2).state := by
  obtain ⟨_, taken, finished, _⟩ := results_of_socket
  have reached : Reached ⟨"out"⟩ socketTree [] (secondStore, socketTree) :=
    reached_of_openAt (abandoned_socket.openAt_eq completed_firstFactories)
  have last : Reached ⟨"out"⟩ socketTree [netFactory "HTTPClient" "two"] afterSocket := by
    rw [afterSocket]
    exact .taken reached (eq_ok_of_toOption_eq_some taken)
  exact last.completed (eq_ok_of_toOption_eq_some finished)

/-- Without the second run, the third one is a run over the files of the first. -/
theorem run_secondReply (artifact : Artifact)
    : run ⟨"out"⟩ firstTree [artifact] = secondReply artifact := by
  have opened : openAt ⟨"out"⟩ firstTree = .done firstTree secondStore :=
    completed_firstFactories.openAt_eq
  rw [run, opened, Reply.done_andThen, secondReply, secondState]
  simp only [writeAll, List.foldl_cons, List.foldl_nil]

/-- The factory for the socket is left over. -/
theorem Completed.files_after_abandoned_socket
    : LeftOver ⟨"out"⟩ [netFactory "Socket" "socket"] [netFactory "HTTPClient" "two"]
        (recording firstFactories) (recording [netFactory "HTTPClient" "two"])
        (afterSocket.1.finish afterSocket.2).state ["out", "net", "socket.rs"] (.text "socket") := by
  obtain ⟨_, _, _, held, absent⟩ := results_of_socket
  obtain ⟨_, files⟩ :=
    completed_firstFactories.files_after_abandoned abandoned_socket completed_afterSocket
  refine ((files _ _).mp held).resolve_right ?_
  rintro ⟨_, present⟩
  rw [run_secondReply, absent] at present
  exact absurd present (by simp)

/-- So not all that abandoned runs have written is gone once a later run has completed. -/
theorem Completed.keeps_abandoned
    : ∃ artifact previous plain tree artifacts manifest after names,
        Completed ⟨"out"⟩ {} firstFactories previous plain
        ∧ Abandoned ⟨"out"⟩ plain [artifact] tree
        ∧ Completed ⟨"out"⟩ tree artifacts manifest after
        ∧ artifact ∉ artifacts
        ∧ after.node? names = some (.file (.text artifact.content))
        ∧ (run ⟨"out"⟩ plain artifacts).state.node? names = none := by
  obtain ⟨_, _, _, held, absent⟩ := results_of_socket
  refine ⟨netFactory "Socket" "socket", _, _, _, [netFactory "HTTPClient" "two"], _, _, _,
    completed_firstFactories, abandoned_socket, completed_afterSocket, by decide, held, ?_⟩
  rw [run_secondReply]
  exact absent

end Wiring.DirectoryStore
