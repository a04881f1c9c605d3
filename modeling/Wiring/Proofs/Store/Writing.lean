import Wiring.Proofs.Artifact.RelativePath
import Wiring.Proofs.FileTree.Operations
import Wiring.Proofs.OrderedInsertion
import Wiring.Store.Directory

/-! Writing artifacts to a directory. As long as all of them are taken, the file of each name holds
the last content written under it: two names never share a file within one run.
-/

namespace Wiring

/-- The store takes all of the artifacts in order, and is left in the last state. -/
inductive Writer.Takes {σ : Type} (write : Writer σ) : σ → List Artifact → σ → Prop
  | nil {state} : Writer.Takes write state [] state
  | cons {state artifact rest last} (taken : (write state artifact).result = .ok ())
    (after : Writer.Takes write (write state artifact).state rest last)
    : Writer.Takes write state (artifact :: rest) last

/-- One more artifact is taken at the end, by induction on those before it. -/
theorem Writer.Takes.concat {σ : Type} {write : Writer σ} {state last : σ}
    {artifacts : List Artifact} {artifact : Artifact} (takes : write.Takes state artifacts last)
    (taken : (write last artifact).result = .ok ())
    : write.Takes state (artifacts ++ [artifact]) (write last artifact).state := by
  induction takes with
  | nil => exact .cons taken .nil
  | cons first _ ih => exact .cons first (ih taken)

namespace DirectoryStore

-----------------------------------------------------------------------------------------
-- One artifact
-----------------------------------------------------------------------------------------

/-- The tree holds the text at the end of the path, all else that was there before, and no other file.
-/
structure Deposits (before after : FileTree) (path : FilePath) (text : String)
    (names : List String) : Prop where
  addresses : after.Addresses path names
  held : after.node? names = some (.file (.text text))
  kept
    : ∀ others node,
        others ≠ names → before.node? others = some node → after.node? others = some node
  files
    : ∀ others content,
        others ≠ names
        → after.node? others = some (.file content)
        → before.node? others = some (.file content)
  directories : before.KeepsDirectories after

/-- Directories may be added first. -/
theorem Deposits.after_directories {before middle after : FileTree} {path : FilePath} {text : String}
    {names : List String} (deposits : Deposits middle after path text names)
    (more : before.AddsDirectories middle)
    : Deposits before after path text names :=
  { deposits with
    kept := fun others node differs present =>
      deposits.kept others node differs (more.kept others node present)
    files := fun others content differs present =>
      more.files others content (deposits.files others content differs present)
    directories := more.kept.keepsDirectories.trans deposits.directories }

/-- A step that takes an artifact records it and deposits its content, and changes nothing else that
matters.
-/
structure Files (before after : DirectoryStore × FileTree) (path : FilePath) (artifact : Artifact)
    : Prop where
  root : after.1.root = before.1.root
  previous : after.1.previous = before.1.previous
  recorded
    : after.1.current.artifacts
      = before.1.current.artifacts.insert artifact.qualifiedName (.ofArtifact artifact)
  counted : after.1.written + after.1.unchanged = before.1.written + before.1.unchanged + 1
  deposits : ∃ names, Deposits before.2 after.2 path artifact.content names

/-- A filed artifact is recorded under its name. -/
theorem Files.current_eq {before after : DirectoryStore × FileTree} {path : FilePath}
    {artifact : Artifact} (files : Files before after path artifact)
    : after.1.current
      = ⟨before.1.current.artifacts.insert artifact.qualifiedName (.ofArtifact artifact)⟩ :=
  congrArg Manifest.mk files.recorded

/-- A file whose content is right already is left alone, and any other one is written. -/
theorem alters_of_writeFile {store : DirectoryStore} {tree : FileTree} {path : FilePath}
    {artifact : Artifact} (taken : (store.writeFile tree path artifact).result = .ok ())
    : ∃ names,
        tree.Addresses path names
        ∧ tree.Alters (store.writeFile tree path artifact).state.2 names
            (some (.file (.text artifact.content))) := by
  unfold writeFile at taken ⊢
  cases right : tree.holds path artifact.content with
  | true =>
      obtain ⟨names, addresses, held⟩ :=
        FileTree.readText_eq_ok_iff.mp (FileTree.holds_iff.mp right)
      exact ⟨names, addresses, held, fun _ _ => rfl, by simp, by simp [held]⟩
  | false =>
      simp only [right] at taken ⊢
      cases wrote : tree.write path (.text artifact.content) with
      | error fault => simp [wrote, Reply.failed] at taken
      | ok written => exact FileTree.alters_of_write wrote

/-- An artifact whose file is written is filed: the file holds its content, and one of the two counters
has gone up. Content that is there already is left and counted as unchanged.
-/
theorem files_of_writeFile {store : DirectoryStore} {tree : FileTree} {path : FilePath}
    {artifact : Artifact} (taken : (store.writeFile tree path artifact).result = .ok ())
    : Files (store, tree) (store.writeFile tree path artifact).state path artifact := by
  obtain ⟨names, addresses, alters⟩ := alters_of_writeFile taken
  have deposits
      : Deposits tree (store.writeFile tree path artifact).state.2 path artifact.content names :=
    ⟨addresses.mono alters.keepsDirectories, alters.here,
      fun others node differs present => (alters.elsewhere others differs).trans present,
      fun others content differs present => (alters.elsewhere others differs).symm.trans present,
      alters.keepsDirectories⟩
  unfold writeFile at taken deposits ⊢
  cases right : tree.holds path artifact.content with
  | true =>
      simp only [right] at deposits ⊢
      exact ⟨rfl, rfl, rfl, rfl, names, deposits⟩
  | false =>
      simp only [right] at taken deposits ⊢
      cases wrote : tree.write path (.text artifact.content) with
      | error fault => simp [wrote, Reply.failed] at taken
      | ok written =>
          simp only [wrote] at deposits ⊢
          exact ⟨rfl, rfl, rfl, Nat.add_right_comm _ _ _, names, deposits⟩

/-- An artifact that is taken clashes with none that was taken before, and gets its file. Directories
that are made first change no file.
-/
theorem files_of_write {store : DirectoryStore} {tree : FileTree} {artifact : Artifact}
    (taken : (write (store, tree) artifact).result = .ok ())
    : store.clash? artifact = none
      ∧ Files (store, tree) (write (store, tree) artifact).state
          (store.root.join artifact.relativePath.text) artifact := by
  unfold write at taken ⊢
  cases clash : store.clash? artifact with
  | some failure => simp [clash, Reply.failed] at taken
  | none =>
      refine ⟨rfl, ?_⟩
      simp only [clash] at taken ⊢
      cases above : (store.root.join artifact.relativePath.text).parent? with
      | none =>
          simp only [above] at taken ⊢
          exact files_of_writeFile taken
      | some parent =>
          simp only [above] at taken ⊢
          have more := FileTree.addsDirectories_ensureDirectory tree parent
          rcases made : tree.ensureDirectory parent with ⟨middle, _ | _⟩
          · simp [made, Reply.failed] at taken
          · simp only [made] at taken more ⊢
            obtain ⟨root, previous, recorded, counted, names, deposits⟩ := files_of_writeFile taken
            exact ⟨root, previous, recorded, counted, names, deposits.after_directories more⟩

/-- An artifact is taken if nothing clashes with it, its directory can be made, and its file written. -/
theorem write_eq_writeFile {store : DirectoryStore} {tree : FileTree} {artifact : Artifact}
    {parent : FilePath} (noClash : store.clash? artifact = none)
    (hasParent : (store.root.join artifact.relativePath.text).parent? = some parent)
    (ensured : (tree.ensureDirectory parent).2 = true)
    : write (store, tree) artifact
      = store.writeFile (tree.ensureDirectory parent).1
          (store.root.join artifact.relativePath.text) artifact := by
  simp only [write, noClash, hasParent]
  rcases made : tree.ensureDirectory parent with ⟨middle, _ | _⟩
  · simp [made] at ensured
  · rfl

/-- An artifact is taken only where its directory could be made. -/
theorem ensured_of_taken {store : DirectoryStore} {tree : FileTree} {artifact : Artifact}
    {parent : FilePath} (taken : (write (store, tree) artifact).result = .ok ())
    (hasParent : (store.root.join artifact.relativePath.text).parent? = some parent)
    : (tree.ensureDirectory parent).2 = true := by
  have noClash := (files_of_write taken).1
  simp only [write, noClash, hasParent] at taken
  rcases made : tree.ensureDirectory parent with ⟨middle, _ | _⟩
  · simp [made, Reply.failed] at taken
  · rfl

/-- An artifact is refused over another one that was taken for its path, or over the tree, by the
places at which it can be refused.
-/
theorem write_eq_error {store : DirectoryStore} {tree : FileTree} {artifact : Artifact}
    {failure : Failure} (refused : (write (store, tree) artifact).result = .error failure)
    : (∃ name entry,
          (name, entry) ∈ store.current.artifacts.entries
          ∧ name ≠ artifact.qualifiedName
          ∧ entry.path.same artifact.relativePath = true
          ∧ failure = .clash artifact.relativePath name artifact.qualifiedName)
      ∨ ∃ path, failure = .inputOutput path := by
  have inFile {store : DirectoryStore} {tree : FileTree} {path : FilePath}
      (refused : (store.writeFile tree path artifact).result = .error failure)
      : failure = .inputOutput path := by
    unfold writeFile at refused
    split at refused
    · simp [Reply.telling, Reply.done] at refused
    · split at refused
      · simp [Reply.telling, Reply.done] at refused
      · exact (Except.error.inj refused).symm
  unfold write at refused
  dsimp only at refused
  split at refused
  · rename_i found clash
    obtain rfl := Except.error.inj refused
    obtain ⟨⟨name, entry⟩, among, rfl⟩ := Option.map_eq_some_iff.mp clash
    have meets := List.find?_some among
    simp only [ne_eq, Bool.and_eq_true, decide_eq_true_eq] at meets
    exact .inl ⟨name, entry, List.mem_of_find?_eq_some among, meets.2, meets.1, rfl⟩
  · refine .inr ?_
    split at refused
    · exact ⟨_, inFile refused⟩
    · split at refused
      · exact ⟨_, inFile refused⟩
      · exact ⟨_, (Except.error.inj refused).symm⟩

/-- Artifacts that do not clash differ in name only when they differ in path. -/
theorem pathNames_ne_of_clash?_eq_none {store : DirectoryStore} {artifact other : Artifact}
    (noClash : store.clash? artifact = none)
    (recorded
      : (other.qualifiedName, ManifestEntry.ofArtifact other) ∈ store.current.artifacts.entries)
    (down : artifact.GoesDown) (otherDown : other.GoesDown)
    (differs : artifact.qualifiedName ≠ other.qualifiedName)
    : other.pathNames ≠ artifact.pathNames := by
  intro same
  have absent := List.find?_eq_none.mp (Option.map_eq_none_iff.mp noClash) _ recorded
  have samePath : other.relativePath.same artifact.relativePath = true := by
    simp [FilePath.same, down.steps_relativePath, otherDown.steps_relativePath, same]
  simp [ManifestEntry.ofArtifact, samePath, differs.symm] at absent

-----------------------------------------------------------------------------------------
-- Artifacts in order
-----------------------------------------------------------------------------------------

/-- The artifact is among the artifacts, and none behind it has its name. -/
def LastOfItsName (artifacts : List Artifact) (artifact : Artifact) : Prop :=
  ∃ front back,
    artifacts = front ++ artifact :: back
    ∧ ∀ later ∈ back, later.qualifiedName ≠ artifact.qualifiedName

/-- These are the artifacts that collecting by name keeps. -/
theorem lastOfItsName_iff {artifacts : List Artifact} {artifact : Artifact}
    : LastOfItsName artifacts artifact
      ↔ artifact ∈ Ascending.collectBy Artifact.qualifiedName artifacts :=
  Ascending.mem_collectBy.symm

/-- The last artifact of a name is one of the artifacts. -/
theorem LastOfItsName.mem {artifacts : List Artifact} {artifact : Artifact}
    (last : LastOfItsName artifacts artifact)
    : artifact ∈ artifacts := by
  obtain ⟨front, back, rfl, _⟩ := last
  simp

/-- A further artifact is the last one of its name, and replaces another one of that name. -/
theorem lastOfItsName_append_singleton {artifacts : List Artifact} {artifact other : Artifact}
    : LastOfItsName (artifacts ++ [other]) artifact
      ↔ artifact = other
        ∨ LastOfItsName artifacts artifact ∧ artifact.qualifiedName ≠ other.qualifiedName := by
  rw [lastOfItsName_iff, lastOfItsName_iff, Ascending.collectBy_append_singleton,
    Ascending.mem_insertBy (Ascending.pairwise_collectBy artifacts)]

/-- What a run has to show for the artifacts it has taken: an entry under each name and a file for
each entry, with what was written last. Different names have different files.
-/
structure Records (base : List String) (artifacts : List Artifact)
    (state : DirectoryStore × FileTree)
    : Prop where
  reaches : state.2.follow [] state.1.root.steps = .node base .directory
  ascending : state.1.current.artifacts.entries.Pairwise (·.1 < ·.1)
  recorded
    : ∀ name entry,
        (name, entry) ∈ state.1.current.artifacts.entries
        ↔ ∃ artifact,
            LastOfItsName artifacts artifact
            ∧ artifact.qualifiedName = name
            ∧ entry = .ofArtifact artifact
  stored
    : ∀ artifact,
        LastOfItsName artifacts artifact
        → state.2.Addresses (state.1.root.join artifact.relativePath.text)
            (base ++ artifact.pathNames)
          ∧ state.2.node? (base ++ artifact.pathNames) = some (.file (.text artifact.content))
  apart
    : ∀ artifact other,
        LastOfItsName artifacts artifact
        → LastOfItsName artifacts other
        → artifact.qualifiedName ≠ other.qualifiedName
        → artifact.pathNames ≠ other.pathNames

/-- A store that opens has its directory, what is recorded there, and nothing of its own yet. -/
theorem openAt_eq_ok {root : FilePath} {tree : FileTree} {store : DirectoryStore}
    (opened : (openAt root tree).result = .ok store)
    : (openAt root tree).state = (tree.ensureDirectory root).1
      ∧ (tree.ensureDirectory root).2 = true
      ∧ ∃ previous,
          loadManifest (tree.ensureDirectory root).1 (manifestPath root) = .ok previous
          ∧ store = { root, previous := previous.getD {} } := by
  unfold openAt at opened ⊢
  rcases made : tree.ensureDirectory root with ⟨present, _ | _⟩
  · simp [made, Reply.failed] at opened
  · simp only [made] at opened ⊢
    cases loaded : loadManifest present (manifestPath root) with
    | error failure => simp [loaded, Reply.failed] at opened
    | ok previous =>
        simp only [loaded] at opened ⊢
        obtain rfl := Except.ok.inj opened
        exact ⟨rfl, trivial, previous, rfl, rfl⟩

/-- A run begins with nothing to show, in a directory that is there. -/
theorem records_of_openAt {root : FilePath} {tree : FileTree} {store : DirectoryStore}
    (opened : (openAt root tree).result = .ok store)
    : ∃ base, Records base [] (store, (openAt root tree).state) := by
  obtain ⟨state, ensured, previous, _, rfl⟩ := openAt_eq_ok opened
  obtain ⟨base, reaches⟩ := FileTree.follow_ensureDirectory ensured
  refine ⟨base, state ▸ reaches, .nil, ?_, ?_, ?_⟩
  · simp [LastOfItsName]
  · simp [LastOfItsName]
  · simp [LastOfItsName]

/-- Writing one more artifact keeps the records: the file that it changes belongs to no other name. -/
theorem Records.write {base : List String} {artifacts : List Artifact} {store : DirectoryStore}
    {tree : FileTree} (records : Records base artifacts (store, tree))
    (down : ∀ artifact ∈ artifacts, artifact.GoesDown) {artifact : Artifact}
    (goesDown : artifact.GoesDown)
    (taken : (DirectoryStore.write (store, tree) artifact).result = .ok ())
    : Records base (artifacts ++ [artifact]) (DirectoryStore.write (store, tree) artifact).state := by
  obtain ⟨noClash, root, _, recorded, _, names, deposits⟩ := files_of_write taken
  have entries := congrArg Catalog.entries recorded
  rw [Catalog.insert, Catalog.insertInto_eq_insertBy] at entries
  have reaches := FileTree.follow_directory_mono records.reaches deposits.directories
  obtain rfl : names = base ++ artifact.pathNames :=
    deposits.addresses.leads.eq_append_of_join reaches goesDown.steps_relativePath
      (by simp [Artifact.pathNames])
  have apart (other : Artifact) (last : LastOfItsName artifacts other)
      (differs : other.qualifiedName ≠ artifact.qualifiedName)
      : other.pathNames ≠ artifact.pathNames := by
    have entry := (records.recorded _ _).mpr ⟨other, last, rfl, rfl⟩
    exact pathNames_ne_of_clash?_eq_none noClash entry goesDown (down other last.mem) differs.symm
  refine ⟨by rw [root]; exact reaches, ?_, ?_, ?_, ?_⟩
  · rw [entries]
    exact Ascending.pairwise_insertBy _ records.ascending
  · intro name entry
    rw [entries, Ascending.mem_insertBy records.ascending, records.recorded]
    simp only [lastOfItsName_append_singleton, Prod.mk.injEq]
    constructor
    · rintro (⟨rfl, rfl⟩ | ⟨⟨other, last, rfl, rfl⟩, differs⟩)
      · exact ⟨artifact, .inl rfl, rfl, rfl⟩
      · exact ⟨other, .inr ⟨last, differs⟩, rfl, rfl⟩
    · rintro ⟨other, rfl | ⟨last, differs⟩, rfl, rfl⟩
      · exact .inl ⟨rfl, rfl⟩
      · exact .inr ⟨⟨other, last, rfl, rfl⟩, differs⟩
  · intro other last
    rw [root]
    rcases lastOfItsName_append_singleton.mp last with rfl | ⟨last, differs⟩
    · exact ⟨deposits.addresses, deposits.held⟩
    · obtain ⟨addresses, held⟩ := records.stored other last
      have elsewhere : base ++ other.pathNames ≠ base ++ artifact.pathNames := by
        simpa using apart other last differs
      exact ⟨addresses.mono deposits.directories, deposits.kept _ _ elsewhere held⟩
  · intro first second firstLast secondLast differs
    rcases lastOfItsName_append_singleton.mp firstLast with rfl | ⟨firstBefore, firstDiffers⟩
    · rcases lastOfItsName_append_singleton.mp secondLast with rfl | ⟨secondBefore, secondDiffers⟩
      · exact absurd rfl differs
      · exact (apart second secondBefore secondDiffers).symm
    · rcases lastOfItsName_append_singleton.mp secondLast with rfl | ⟨secondBefore, secondDiffers⟩
      · exact apart first firstBefore firstDiffers
      · exact records.apart first second firstBefore secondBefore differs

/-- A run neither moves nor forgets what the previous one recorded. -/
theorem eq_of_takes {artifacts : List Artifact} {state last : DirectoryStore × FileTree}
    (takes : DirectoryStore.write.Takes state artifacts last)
    : last.1.root = state.1.root ∧ last.1.previous = state.1.previous := by
  induction takes with
  | nil => exact ⟨rfl, rfl⟩
  | cons taken _ ih =>
      obtain ⟨_, root, previous, _⟩ := files_of_write taken
      exact ⟨ih.1.trans root, ih.2.trans previous⟩

/-- A run keeps its records, by induction on the artifacts it takes. -/
theorem Records.takes {base : List String} {artifacts more : List Artifact}
    {state last : DirectoryStore × FileTree} (records : Records base artifacts state)
    (down : ∀ artifact ∈ artifacts ++ more, artifact.GoesDown)
    (takes : DirectoryStore.write.Takes state more last)
    : Records base (artifacts ++ more) last := by
  induction takes generalizing artifacts with
  | nil => simpa using records
  | @cons state artifact rest last taken _ ih =>
      have here := records.write (fun other member => down other (by simp [member]))
        (down artifact (by simp)) taken
      have after := ih here (by simpa using down)
      simpa using after

end DirectoryStore

end Wiring
