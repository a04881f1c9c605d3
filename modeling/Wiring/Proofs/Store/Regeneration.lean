import Wiring.Proofs.Store.Clashes
import Wiring.Proofs.Store.OwnFiles

/-! Generating again. Where a run has left its files, a further run of the same artifacts finds all of
them in place, in whatever order they come. It writes nothing, removes nothing, and ends with the same
manifest and the same tree.
-/

namespace Wiring

namespace FileTree

variable {tree other : FileTree} {path : FilePath} {names : List String}

/-- Setting a node twice is setting it once. -/
theorem set_set (tree : FileTree) (names : List String) (node : FileNode)
    : (tree.set names node).set names node = tree.set names node := by
  simp [set]

/-- Writing once more what was written changes nothing. The content is at the place of the path
already.
-/
theorem write_again {content : FileContent} (wrote : tree.write path content = .ok other)
    : other.write path content = .ok other := by
  obtain ⟨names, addresses, alters⟩ := alters_of_write wrote
  have same : other = tree.set names (.file content) := by
    have place := addresses.place_eq
    unfold write at wrote
    cases held : tree.node? names with
    | none =>
        simp only [place, held, Place.holding] at wrote
        split at wrote
        · contradiction
        · exact (Except.ok.inj wrote).symm
    | some node =>
        cases node with
        | directory => exact absurd held alters.noDirectoryBefore
        | file before =>
            simp only [place, held, Place.holding] at wrote
            exact (Except.ok.inj wrote).symm
  have place : other.place path = .node names (.file content) := by
    rw [(addresses.mono alters.keepsDirectories).place_eq, alters.here, Place.holding]
  rw [write, place]
  simp only [same, set_set]

end FileTree

namespace DirectoryStore

open FileTree

variable {root : FilePath} {tree : FileTree} {base : List String} {artifacts : List Artifact}
  {store : DirectoryStore} {state last : DirectoryStore × FileTree} {manifest : Manifest}

-----------------------------------------------------------------------------------------
-- Artifacts in place
-----------------------------------------------------------------------------------------

/-- The directory of the artifact is there, and its file with its content. -/
structure InPlace (root : FilePath) (tree : FileTree) (artifact : Artifact) : Prop where
  ensured
    : ∀ parent,
        (root.join artifact.relativePath.text).parent? = some parent
        → tree.ensureDirectory parent = (tree, true)
  held : tree.readText (root.join artifact.relativePath.text) = .ok artifact.content

/-- An artifact in place is counted and recorded, and that is all. -/
theorem write_of_inPlace {artifact : Artifact} (noClash : store.clash? artifact = none)
    (inPlace : InPlace store.root tree artifact)
    : write (store, tree) artifact
      = .telling [.leftUnchanged (store.root.join artifact.relativePath.text)]
          (.done (({ store with unchanged := store.unchanged + 1 }).record artifact, tree) ()) := by
  have right := holds_iff.mpr inPlace.held
  simp only [write, noClash]
  cases above : (store.root.join artifact.relativePath.text).parent? with
  | none => simp only [writeFile, right, if_true]
  | some parent => simp only [inPlace.ensured parent above, writeFile, right, if_true]

/-- Artifacts in place whose paths differ are all taken, and the tree stays as it is, by induction on
them.
-/
theorem Records.takes_inPlace {front rest : List Artifact}
    (records : Records base front (store, tree))
    (down : ∀ artifact ∈ front ++ rest, artifact.GoesDown)
    (apart
      : ∀ artifact ∈ front ++ rest,
          ∀ other ∈ front ++ rest,
            other.qualifiedName ≠ artifact.qualifiedName
            → other.relativePath ≠ artifact.relativePath)
    (inPlace : ∀ artifact ∈ rest, InPlace store.root tree artifact)
    : ∃ last,
        DirectoryStore.write.Takes (store, tree) rest (last, tree)
        ∧ last.written = store.written
        ∧ last.unchanged = store.unchanged + rest.length := by
  induction rest generalizing front store with
  | nil => exact ⟨store, .nil, rfl, rfl⟩
  | cons artifact rest ih =>
      obtain ⟨here, later⟩ := List.forall_mem_cons.mp inPlace
      have earlier : ∀ other ∈ front, other.GoesDown :=
        fun other member => down other (List.mem_append_left _ member)
      have goesDown := down artifact (by simp)
      have noClash : store.clash? artifact = none := by
        refine Option.eq_none_iff_forall_not_mem.mpr fun failure clash => ?_
        obtain ⟨other, isLast, differs, samePath, _⟩ :=
          (records.clash?_eq_some_iff earlier goesDown).mp clash
        exact apart artifact (by simp) other (by simp [isLast.mem]) differs samePath
      have wrote := write_of_inPlace noClash here
      have taken : (DirectoryStore.write (store, tree) artifact).result = .ok () := by
        rw [wrote]
        rfl
      have grown := records.write earlier goesDown taken
      rw [wrote] at grown
      obtain ⟨last, takes, written, unchanged⟩ :=
        ih grown (by simpa using down) (by simpa using apart) later
      refine ⟨last, .cons taken (by rw [wrote]; exact takes), written, unchanged.trans ?_⟩
      simp only [record, List.length_cons]
      omega

-----------------------------------------------------------------------------------------
-- What a run leaves in place
-----------------------------------------------------------------------------------------

/-- Artifacts that are all taken are all written, by induction on them. -/
theorem writeAll_of_takes (takes : write.Takes state artifacts last)
    : writeAll state artifacts = last := by
  induction takes with
  | nil => rfl
  | cons _ _ ih => exact ih

/-- The directory of an artifact that was taken is there for as long as directories stay. -/
theorem ensured_of_write {artifact : Artifact} {parent : FilePath} {later : FileTree}
    (taken : (write (store, tree) artifact).result = .ok ())
    (above : (store.root.join artifact.relativePath.text).parent? = some parent)
    (keeps : (write (store, tree) artifact).state.2.KeepsDirectories later)
    : later.ensureDirectory parent = (later, true) := by
  have ensured := ensured_of_taken taken above
  have writes := write_eq_writeFile (files_of_write taken).1 above ensured
  rw [writes] at taken keeps
  obtain ⟨_, _, _, _, _, deposits⟩ := files_of_writeFile taken
  exact ensureDirectory_of_keepsDirectories ensured (deposits.directories.trans keeps)

/-- In a later tree the directories of all artifacts that were taken are there already, since each
write made sure of its own and no later step takes directories away.
-/
theorem ensured_of_takes (takes : write.Takes state artifacts last) {later : FileTree}
    (keeps : last.2.KeepsDirectories later)
    : ∀ artifact ∈ artifacts,
        ∀ parent,
          (state.1.root.join artifact.relativePath.text).parent? = some parent
          → later.ensureDirectory parent = (later, true) := by
  induction takes with
  | nil => simp
  | @cons state artifact rest last taken after ih =>
      refine List.forall_mem_cons.mpr ⟨fun parent above => ?_, ?_⟩
      · have continues := continues_writeAll (write state artifact).state rest
        rw [writeAll_of_takes after] at continues
        exact ensured_of_write taken above (continues.directories.trans keeps)
      · have sameRoot := (files_of_write taken).2.root
        rw [← sameRoot]
        exact ih keeps

/-- A run that was given no two artifacts of one name, and had nothing to remove, leaves them all in
place.
-/
theorem Records.inPlace_of_finish (records : Records base artifacts last)
    (distinct : (artifacts.map Artifact.qualifiedName).Nodup)
    (takes : DirectoryStore.write.Takes state artifacts last) (fresh : state.1.previous = {})
    (finished : (last.1.finish last.2).result = .ok manifest)
    : ∀ artifact ∈ artifacts, InPlace state.1.root (last.1.finish last.2).state artifact := by
  obtain ⟨sameRoot, samePrevious⟩ := eq_of_takes takes
  have contents :=
    (records.holdsEach_of_finish distinct (samePrevious.trans fresh) finished).contents
  rw [sameRoot] at contents
  exact fun artifact member =>
    ⟨ensured_of_takes takes (keepsDirectories_of_finish finished).1 artifact member,
      contents artifact member⟩

/-- Runs of the same artifacts, none of which has the name of another, record the same. -/
theorem Records.current_eq {permuted : List Artifact} {again : DirectoryStore × FileTree}
    {otherBase : List String} (records : Records base artifacts last)
    (others : Records otherBase permuted again) (perm : permuted.Perm artifacts)
    (distinct : (artifacts.map Artifact.qualifiedName).Nodup)
    : again.1.current = last.1.current := by
  have otherDistinct : (permuted.map Artifact.qualifiedName).Nodup :=
    (perm.map Artifact.qualifiedName).nodup_iff.mpr distinct
  have entries
      : again.1.current.artifacts.entries.Perm last.1.current.artifacts.entries :=
    ((others.entries_perm otherDistinct).trans (perm.map _)).trans
      (records.entries_perm distinct).symm
  refine congrArg Manifest.mk (congrArg Catalog.mk ?_)
  refine entries.eq_of_pairwise (fun first second _ _ below above => ?_) others.ascending
    records.ascending
  exact absurd above (String.lt_asymm below)

/-- A store that finishes with the manifest of the run before it has nothing to remove, and leaves that
manifest as it is.
-/
theorem finish_again {later : DirectoryStore}
    (finished : (store.finish tree).result = .ok manifest) (sameRoot : later.root = store.root)
    (previous : later.previous = manifest) (current : later.current = manifest)
    : later.stale = []
      ∧ later.finish (store.finish tree).state = .done (store.finish tree).state manifest := by
  have nothingStale : later.stale = [] := by
    rw [stale, previous, current, List.map_eq_nil_iff, List.filter_eq_nil_iff]
    rintro ⟨name, entry⟩ member
    have contained : manifest.artifacts.contains name = true :=
      List.contains_iff_mem.mpr (List.mem_map_of_mem member)
    simp [contained]
  refine ⟨nothingStale, ?_⟩
  obtain ⟨same, _, wrote⟩ := finish_eq_ok_iff.mp ⟨finished, rfl⟩
  have again := write_again wrote
  rw [← same, ← sameRoot, ← current] at again
  rw [← current]
  generalize (store.finish tree).state = left at again ⊢
  rw [finish, nothingStale, removeEach_nil, Reply.done_andThen]
  simp only [again]

/-- A run that takes all of its artifacts ends as its store does. -/
theorem run_of_takes (opened : (openAt root tree).result = .ok store)
    (takes : write.Takes (store, (openAt root tree).state) artifacts last)
    : (run root tree artifacts).result = (last.1.finish last.2).result
      ∧ (run root tree artifacts).state = (last.1.finish last.2).state := by
  have wrote := writeAll_of_takes takes
  rcases present : openAt root tree with ⟨state, events, _ | found⟩
  · simp [present] at opened
  · rw [present] at opened wrote
    obtain rfl := Except.ok.inj opened
    rw [run, present, ← wrote]
    exact ⟨rfl, rfl⟩

/-- Generating again changes nothing. Where a directory held no files, and a run there took artifacts
with proper names of their own and finished, a further run takes the same artifacts in any order,
leaves each of their files as it is, has nothing to remove, and finishes with the same manifest and the
very same tree. Each artifact finds its file in place and no clash, and the records do not depend on
the order.
-/
theorem takes_again_in_any_order {permuted : List Artifact}
    (empty : HoldsNoFile root (tree.ensureDirectory root).1)
    (opened : (openAt root tree).result = .ok store)
    (named : ∀ artifact ∈ artifacts, artifact.IsNamed)
    (distinct : (artifacts.map Artifact.qualifiedName).Nodup)
    (takes : write.Takes (store, (openAt root tree).state) artifacts last)
    (finished : (last.1.finish last.2).result = .ok manifest)
    (perm : permuted.Perm artifacts)
    : ∃ second again,
        openAt root (last.1.finish last.2).state = .done (last.1.finish last.2).state second
        ∧ write.Takes (second, (last.1.finish last.2).state) permuted again
        ∧ again.1.written = 0
        ∧ again.1.unchanged = artifacts.length
        ∧ again.1.stale = []
        ∧ again.1.finish again.2 = .done (last.1.finish last.2).state manifest := by
  have down : ∀ artifact ∈ artifacts, artifact.GoesDown :=
    fun artifact member => (named artifact member).goesDown
  obtain ⟨_, beginning⟩ := records_of_openAt opened
  have records := beginning.takes (by simpa using down) takes
  obtain rfl := eq_of_holdsNoFile empty opened
  obtain ⟨sameRoot, _⟩ := eq_of_takes takes
  have inPlace := records.inPlace_of_finish distinct takes rfl finished
  -- What the run leaves opens again, with what the run recorded.
  obtain ⟨sameResult, sameState⟩ := run_of_takes opened takes
  have reopened := openAt_run (sameResult.trans finished)
  rw [sameState] at reopened
  obtain ⟨_, anew⟩ := records_of_openAt (congrArg Reply.result reopened)
  rw [reopened] at anew
  have member {artifact : Artifact} : artifact ∈ [] ++ permuted ↔ artifact ∈ artifacts := by
    rw [List.nil_append, perm.mem_iff]
  have apart
      : ∀ artifact ∈ [] ++ permuted,
          ∀ other ∈ [] ++ permuted,
            other.qualifiedName ≠ artifact.qualifiedName
            → other.relativePath ≠ artifact.relativePath := by
    intro artifact inOrder other otherInOrder differs samePath
    have isLast := (lastOfItsName_of_nodup distinct).mpr (member.mp inOrder)
    have otherLast := (lastOfItsName_of_nodup distinct).mpr (member.mp otherInOrder)
    refine records.apart other artifact otherLast isLast differs ?_
    exact (down other otherLast.mem).pathNames_eq (down artifact isLast.mem)
      (decide_eq_true (congrArg FilePath.steps samePath))
  obtain ⟨again, takesAgain, written, unchanged⟩ :=
    anew.takes_inPlace (fun artifact inOrder => down artifact (member.mp inOrder)) apart
      fun artifact inOrder => inPlace artifact (perm.mem_iff.mp inOrder)
  obtain ⟨againRoot, againPrevious⟩ := eq_of_takes takesAgain
  have recordsAgain :=
    anew.takes (fun artifact inOrder => down artifact (member.mp inOrder)) takesAgain
  obtain rfl : manifest = last.1.current := (clears_of_finish finished).1
  have current : again.current = last.1.current := records.current_eq recordsAgain perm distinct
  obtain ⟨nothingStale, finishes⟩ :=
    finish_again finished (againRoot.trans sameRoot.symm) againPrevious current
  refine ⟨_, _, reopened, takesAgain, written, ?_, nothingStale, finishes⟩
  rw [unchanged, perm.length_eq, Nat.zero_add]

/-- A first run takes its two factories. -/
theorem takes_firstFactories
    : (∀ artifact ∈ firstFactories, artifact.IsNamed)
      ∧ (write (storeOfOut, (openAt ⟨"out"⟩ {}).state) (netFactory "HTTPClient" "one")).result.toOption
        = some ()
      ∧ (write (write (storeOfOut, (openAt ⟨"out"⟩ {}).state) (netFactory "HTTPClient" "one")).state
            (netFactory "Pool" "pool")).result.toOption
        = some () := by
  decide +kernel

/-- The two factories are written again the other way round. -/
theorem takes_again_in_any_order_firstFactories
    : ∃ last second again,
        write.Takes (storeOfOut, (openAt ⟨"out"⟩ {}).state) firstFactories last
        ∧ (last.1.finish last.2).result = .ok (recording firstFactories)
        ∧ openAt ⟨"out"⟩ (last.1.finish last.2).state = .done (last.1.finish last.2).state second
        ∧ write.Takes (second, (last.1.finish last.2).state) firstFactories.reverse again
        ∧ again.1.written = 0
        ∧ again.1.unchanged = 2
        ∧ again.1.stale = []
        ∧ again.1.finish again.2
          = .done (last.1.finish last.2).state (recording firstFactories) := by
  obtain ⟨named, first, second⟩ := takes_firstFactories
  have takes : write.Takes (storeOfOut, (openAt ⟨"out"⟩ {}).state) firstFactories _ :=
    .cons (eq_ok_of_toOption_eq_some first) (.cons (eq_ok_of_toOption_eq_some second) .nil)
  have completed := (run_of_takes openAt_out takes).1
  rw [eq_ok_of_toOption_eq_some results_of_runs.1] at completed
  obtain ⟨second, again, results⟩ :=
    takes_again_in_any_order holdsNoFile_start openAt_out named (by decide) takes completed.symm
      (List.reverse_perm firstFactories)
  exact ⟨_, second, again, takes, completed.symm, results⟩

end DirectoryStore

end Wiring
