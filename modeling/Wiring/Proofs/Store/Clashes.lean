import Wiring.Proofs.Store.Leftovers

/-! Clashes. In whatever state writing has brought a store, an artifact clashes exactly with another
one that was taken for the same path; an artifact that is refused changes nothing that is recorded.
-/

namespace Wiring.DirectoryStore

open FileTree

-----------------------------------------------------------------------------------------
-- States of a run
-----------------------------------------------------------------------------------------

/-- What writing artifacts can make of a store that was opened, with those that it has taken by then.
A write may also fail for a cause that is not in the tree, such as a full disk; directories may have
been created by then, and the files are as they were.
-/
inductive Reached (root : FilePath) (start : FileTree)
    : List Artifact → DirectoryStore × FileTree → Prop
  | opened {store} (opened : (openAt root start).result = .ok store)
    : Reached root start [] (store, (openAt root start).state)
  | taken {artifacts state artifact} (before : Reached root start artifacts state)
    (taken : (write state artifact).result = .ok ())
    : Reached root start (artifacts ++ [artifact]) (write state artifact).state
  | refused {artifacts state artifact failure} (before : Reached root start artifacts state)
    (refused : (write state artifact).result = .error failure)
    : Reached root start artifacts (write state artifact).state
  | broken {artifacts store tree grown} (before : Reached root start artifacts (store, tree))
    (more : tree.AddsDirectories grown)
    : Reached root start artifacts (store, grown)

variable {root : FilePath} {start tree : FileTree} {base : List String}
  {artifacts : List Artifact} {store : DirectoryStore} {state : DirectoryStore × FileTree}

/-- New directories keep the records of a run. -/
theorem Records.grown (records : Records base artifacts (store, tree)) {grown : FileTree}
    (more : tree.AddsDirectories grown)
    : Records base artifacts (store, grown) :=
  { records with
    reaches := follow_directory_mono records.reaches more.kept.keepsDirectories
    stored := fun artifact isLast => by
      obtain ⟨addresses, held⟩ := records.stored artifact isLast
      exact ⟨addresses.mono more.kept.keepsDirectories, more.kept _ _ held⟩ }

/-- Whatever state is reached, it has records to show for the artifacts that were taken, by induction
on the way there.
-/
theorem Reached.exists_records (reached : Reached root start artifacts state)
    (named : ∀ artifact ∈ artifacts, artifact.IsNamed)
    : ∃ base, Records base artifacts state := by
  induction reached with
  | opened opened => exact records_of_openAt opened
  | @taken artifacts state artifact _ taken ih =>
      obtain ⟨earlier, last⟩ := List.forall_mem_append.mp named
      obtain ⟨base, records⟩ := ih earlier
      have isNamed := last artifact List.mem_cons_self
      exact ⟨base, records.write (fun other member => (earlier other member).goesDown)
        isNamed.goesDown taken⟩
  | @refused artifacts state artifact failure _ refused ih =>
      obtain ⟨base, records⟩ := ih named
      obtain ⟨same, more⟩ := write_of_error refused
      generalize (write state artifact).state = after at same more
      obtain ⟨store, grown⟩ := after
      obtain rfl : store = state.1 := same
      exact ⟨base, records.grown more⟩
  | broken _ more ih =>
      obtain ⟨base, records⟩ := ih named
      exact ⟨base, records.grown more⟩

-----------------------------------------------------------------------------------------
-- Which artifacts clash
-----------------------------------------------------------------------------------------

/-- The only way to a clash is that of the clash check. -/
theorem result_eq_clash_iff {artifact : Artifact} {file : FilePath} {first second : String}
    : (write (store, tree) artifact).result = .error (.clash file first second)
      ↔ store.clash? artifact = some (.clash file first second) := by
  constructor
  · intro refused
    cases clash : store.clash? artifact with
    | some failure =>
        simp only [write, clash, Reply.failed, Except.error.injEq] at refused
        rw [refused]
    | none =>
        rcases write_eq_error refused with ⟨name, entry, among, differs, same, _⟩ | ⟨_, other⟩
        · have passed := List.find?_eq_none.mp (Option.map_eq_none_iff.mp clash) _ among
          simp [same, differs] at passed
        · contradiction
  · intro clash
    simp only [write, clash, Reply.failed]

/-- An artifact that clashes leaves all as it was. -/
theorem state_of_clash {artifact : Artifact} {failure : Failure}
    (clash : store.clash? artifact = some failure)
    : (write (store, tree) artifact).state = (store, tree) := by
  simp only [write, clash, Reply.failed]

/-- Where a run has records to show, an artifact clashes with the one that is recorded for its path
under another name, of which there is at most one. Proper names of one place have one path, and the
records of different names lie apart.
-/
theorem Records.clash?_eq_some_iff (records : Records base artifacts (store, tree))
    (down : ∀ other ∈ artifacts, other.GoesDown) {artifact : Artifact}
    (goesDown : artifact.GoesDown) {failure : Failure}
    : store.clash? artifact = some failure
      ↔ ∃ other,
          LastOfItsName artifacts other
          ∧ other.qualifiedName ≠ artifact.qualifiedName
          ∧ other.relativePath = artifact.relativePath
          ∧ failure
            = .clash artifact.relativePath other.qualifiedName artifact.qualifiedName := by
  constructor
  · intro clash
    obtain ⟨⟨name, entry⟩, found, rfl⟩ := Option.map_eq_some_iff.mp clash
    have meets := List.find?_some found
    obtain ⟨other, isLast, rfl, rfl⟩ :=
      (records.recorded name entry).mp (List.mem_of_find?_eq_some found)
    simp only [ManifestEntry.path_ofArtifact, ne_eq, Bool.and_eq_true, decide_eq_true_eq] at meets
    obtain ⟨same, differs⟩ := meets
    exact ⟨other, isLast, differs,
      Artifact.relativePath_eq_of_pathNames_eq
        ((down other isLast.mem).pathNames_eq goesDown same),
      rfl⟩
  · rintro ⟨other, isLast, differs, samePath, rfl⟩
    cases clash : store.clash? artifact with
    | none =>
        refine absurd ?_ (pathNames_ne_of_clash?_eq_none clash
          ((records.recorded _ _).mpr ⟨other, isLast, rfl, rfl⟩) goesDown
          (down other isLast.mem) differs.symm)
        exact (down other isLast.mem).pathNames_eq goesDown
          (decide_eq_true (congrArg FilePath.steps samePath))
    | some failure =>
        -- The entry that the check finds first is the only one with this path.
        obtain ⟨⟨name, entry⟩, found, rfl⟩ := Option.map_eq_some_iff.mp clash
        have meets := List.find?_some found
        obtain ⟨met, metLast, rfl, rfl⟩ :=
          (records.recorded name entry).mp (List.mem_of_find?_eq_some found)
        simp only [ManifestEntry.path_ofArtifact, Bool.and_eq_true] at meets
        have samePlace : met.relativePath.same other.relativePath = true := by
          rw [samePath]
          exact meets.1
        by_cases sameName : met.qualifiedName = other.qualifiedName
        · rw [sameName]
        · exact absurd
            ((down met metLast.mem).pathNames_eq (down other isLast.mem) samePlace)
            (records.apart met other metLast isLast sameName)

-----------------------------------------------------------------------------------------
-- How artifacts are judged
-----------------------------------------------------------------------------------------

/-- How a store judges an artifact after it has taken others. It clashes with those that were taken
for its path under other names, and with nothing else. Whatever it is refused for, the store is as it
was; over a clash so are the files and the directories.
-/
structure Judges (artifacts : List Artifact) (state : DirectoryStore × FileTree)
    (artifact : Artifact)
    : Prop where
  clashes
    : ∀ file first second,
        (write state artifact).result = .error (.clash file first second)
        ↔ ∃ other ∈ artifacts,
            other.qualifiedName ≠ artifact.qualifiedName
            ∧ other.relativePath = artifact.relativePath
            ∧ file = artifact.relativePath
            ∧ first = other.qualifiedName
            ∧ second = artifact.qualifiedName
  refused
    : ∀ failure,
        (write state artifact).result = .error failure → (write state artifact).state.1 = state.1
  untouched
    : ∀ file first second,
        (write state artifact).result = .error (.clash file first second)
        → (write state artifact).state = state

/-- What a store has recorded of the artifacts that it has taken: each name with the last artifact
under it, whose content is in its file. The paths under different names differ.
-/
structure Recorded (artifacts : List Artifact) (state : DirectoryStore × FileTree) : Prop where
  entries
    : ∀ name entry,
        (name, entry) ∈ state.1.current.artifacts.entries
        ↔ ∃ artifact,
            LastOfItsName artifacts artifact
            ∧ artifact.qualifiedName = name
            ∧ entry = .ofArtifact artifact
  apart
    : ∀ recorded ∈ state.1.current.artifacts.entries,
        ∀ other ∈ state.1.current.artifacts.entries,
          recorded.1 ≠ other.1 → recorded.2.path.same other.2.path = false
  contents
    : ∀ artifact,
        LastOfItsName artifacts artifact
        → state.2.readText (state.1.root.join artifact.relativePath.text) = .ok artifact.content

/-- Each name among the artifacts has a last one, as its entry has a last value. -/
theorem LastOfItsName.exists_of_mem {artifact : Artifact} (member : artifact ∈ artifacts)
    : ∃ other, LastOfItsName artifacts other ∧ other.qualifiedName = artifact.qualifiedName := by
  simp only [lastOfItsName_iff]
  exact Ascending.exists_mem_collectBy.mpr ⟨artifact, member, rfl⟩

/-- Records decide which artifacts are refused: one clashes where a recorded path leads to the same
file under another name.
-/
theorem Records.judges (records : Records base artifacts (store, tree))
    (named : ∀ other ∈ artifacts, other.IsNamed) {artifact : Artifact}
    (isNamed : artifact.IsNamed)
    : Judges artifacts (store, tree) artifact := by
  have down : ∀ other ∈ artifacts, other.GoesDown :=
    fun other member => (named other member).goesDown
  refine ⟨fun file first second => ?_, fun failure refused => (write_of_error refused).1, ?_⟩
  · rw [result_eq_clash_iff, records.clash?_eq_some_iff down isNamed.goesDown]
    constructor
    · rintro ⟨other, isLast, differs, samePath, same⟩
      obtain ⟨rfl, rfl, rfl⟩ := Failure.clash.inj same
      exact ⟨other, isLast.mem, differs, samePath, rfl, rfl, rfl⟩
    · rintro ⟨other, member, differs, samePath, rfl, rfl, rfl⟩
      -- The last artifact of that name has the same path.
      obtain ⟨last, isLast, sameName⟩ := LastOfItsName.exists_of_mem member
      have path := (named last isLast.mem).relativePath_eq (named other member) sameName
      exact ⟨last, isLast, sameName ▸ differs, path.trans samePath, by rw [sameName]⟩
  · intro file first second refused
    exact state_of_clash (result_eq_clash_iff.mp refused)

/-- What is recorded is the last artifact of each name, and no two of them share a file. -/
theorem Records.recordedOf (records : Records base artifacts (store, tree))
    (down : ∀ other ∈ artifacts, other.GoesDown)
    : Recorded artifacts (store, tree) := by
  refine ⟨records.recorded, ?_, fun artifact isLast => ?_⟩
  · rintro ⟨name, entry⟩ member ⟨otherName, otherEntry⟩ otherMember differs
    obtain ⟨artifact, isLast, rfl, rfl⟩ := (records.recorded name entry).mp member
    obtain ⟨other, otherLast, rfl, rfl⟩ := (records.recorded otherName otherEntry).mp otherMember
    simp only [ManifestEntry.path_ofArtifact]
    refine Bool.eq_false_iff.mpr fun same => records.apart artifact other isLast otherLast differs ?_
    exact (down artifact isLast.mem).pathNames_eq (down other otherLast.mem) same
  · obtain ⟨addresses, held⟩ := records.stored artifact isLast
    exact readText_eq_ok_iff.mpr ⟨_, addresses, held⟩

/-- In whatever state a store is, clashes are exact and harmless, and no two names that it has recorded
share a file.
-/
theorem Reached.clash_exact (reached : Reached root start artifacts state)
    (named : ∀ artifact ∈ artifacts, artifact.IsNamed)
    : Recorded artifacts state
      ∧ ∀ artifact : Artifact, artifact.IsNamed → Judges artifacts state artifact := by
  obtain ⟨base, records⟩ := reached.exists_records named
  exact ⟨records.recordedOf fun artifact member => (named artifact member).goesDown,
    fun artifact isNamed => records.judges named isNamed⟩

/-- A client, and a second spelling of its name that goes to the same file. -/
theorem clashingClients
    : (netFactory "HTTPClient" "one").IsNamed
      ∧ (netFactory "HttpClient" "two").IsNamed
      ∧ (netFactory "HTTPClient" "one").relativePath = ⟨"net/http_client.rs"⟩
      ∧ (netFactory "HttpClient" "two").relativePath = ⟨"net/http_client.rs"⟩
      ∧ (write (storeOfOut, (openAt ⟨"out"⟩ {}).state)
            (netFactory "HTTPClient" "one")).result.toOption
        = some () := by
  decide +kernel

/-- Witness: a second spelling of a client is refused, and the file of the first one stays. -/
theorem Reached.clash_exact_clients
    : ∃ state,
        Reached ⟨"out"⟩ {} [netFactory "HTTPClient" "one"] state
        ∧ (netFactory "HttpClient" "two").IsNamed
        ∧ (write state (netFactory "HttpClient" "two")).result
          = .error (.clash ⟨"net/http_client.rs"⟩ "crate::net::HTTPClient"
              "crate::net::HttpClient")
        ∧ (write state (netFactory "HttpClient" "two")).state = state
        ∧ state.2.readText (state.1.root.join "net/http_client.rs") = .ok "one" := by
  obtain ⟨firstNamed, secondNamed, firstPath, secondPath, taken⟩ := clashingClients
  have reached : Reached ⟨"out"⟩ {} [netFactory "HTTPClient" "one"] _ :=
    .taken (.opened openAt_out) (eq_ok_of_toOption_eq_some taken)
  obtain ⟨recorded, judges⟩ := reached.clash_exact (by simpa using firstNamed)
  have second := judges (netFactory "HttpClient" "two") secondNamed
  have clash := (second.clashes _ _ _).mpr
    ⟨netFactory "HTTPClient" "one", List.mem_singleton_self _, by decide,
      firstPath.trans secondPath.symm, rfl, rfl, rfl⟩
  have held := recorded.contents (netFactory "HTTPClient" "one") ⟨[], [], rfl, by simp⟩
  refine ⟨_, reached, secondNamed, ?_, second.untouched _ _ _ clash, ?_⟩
  · rw [clash, secondPath]
    rfl
  · rwa [firstPath] at held

end Wiring.DirectoryStore
