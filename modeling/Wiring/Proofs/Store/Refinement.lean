import Wiring.Proofs.Store.Histories
import Wiring.Store.Memory

/-! The directory as a memory. A directory without a manifest that takes all artifacts of a run ends
with what a memory has that is given the same artifacts: the same names with the same kinds and
origins, the same contents, and as many writes.
-/

namespace Wiring

/-- Values may be changed before or after one more of them is inserted. -/
theorem Catalog.insertInto_map {α β : Type} (change : α → β) (name : String) (value : α)
    (entries : List (String × α))
    : insertInto name (change value) (entries.map fun (other, held) => (other, change held))
      = (insertInto name value entries).map fun (other, held) => (other, change held) := by
  fun_induction insertInto name value entries <;> simp_all [insertInto]

namespace MemoryStore

/-- Insertions keep entries ascending, by induction on them. -/
theorem ascending_foldl_insert (artifacts : List Artifact)
    : (artifacts.foldl insert {}).artifacts.entries.Pairwise (·.1 < ·.1) := by
  induction artifacts using List.reverseRecOn with
  | nil => exact .nil
  | append_singleton artifacts last ih =>
      rw [List.foldl_concat, insert, Catalog.insert, Catalog.insertInto_eq_insertBy]
      exact Ascending.pairwise_insertBy _ ih

/-- What a memory holds under a name was written last under it, by induction from the last artifact. -/
theorem mem_foldl_insert {artifacts : List Artifact} {name : String} {artifact : Artifact}
    : (name, artifact) ∈ (artifacts.foldl insert {}).artifacts.entries
      ↔ DirectoryStore.LastOfItsName artifacts artifact ∧ artifact.qualifiedName = name := by
  induction artifacts using List.reverseRecOn with
  | nil => simp [DirectoryStore.LastOfItsName]
  | append_singleton artifacts last ih =>
      rw [List.foldl_concat, insert, Catalog.insert, Catalog.insertInto_eq_insertBy,
        Ascending.mem_insertBy (ascending_foldl_insert artifacts), ih,
        DirectoryStore.lastOfItsName_append_singleton]
      constructor
      · rintro (same | ⟨⟨isLast, rfl⟩, differs⟩)
        · obtain ⟨rfl, rfl⟩ := Prod.mk.inj same
          exact ⟨.inl rfl, rfl⟩
        · exact ⟨.inr ⟨isLast, differs⟩, rfl⟩
      · rintro ⟨rfl | ⟨isLast, differs⟩, rfl⟩
        · exact .inl rfl
        · exact .inr ⟨⟨isLast, rfl⟩, differs⟩

/-- The manifest of a directory with the artifacts that the memory holds. -/
def manifest (memory : MemoryStore) : Manifest :=
  ⟨⟨memory.artifacts.entries.map fun (name, artifact) => (name, .ofArtifact artifact)⟩⟩

/-- A further artifact goes into the manifest as it goes into the memory. -/
theorem manifest_insert (memory : MemoryStore) (artifact : Artifact)
    : (memory.insert artifact).manifest
      = ⟨memory.manifest.artifacts.insert artifact.qualifiedName (.ofArtifact artifact)⟩ :=
  congrArg (fun entries => Manifest.mk ⟨entries⟩)
    (Catalog.insertInto_map ManifestEntry.ofArtifact artifact.qualifiedName artifact _).symm

end MemoryStore

namespace DirectoryStore

/-- The directory records what the memory holds, and both were written to equally often. -/
structure Mirrors (store : DirectoryStore) (memory : MemoryStore) : Prop where
  recorded : store.current = memory.manifest
  counted : store.written + store.unchanged = memory.writes

variable {root : FilePath} {tree : FileTree} {store : DirectoryStore} {memory : MemoryStore}

/-- An artifact that the directory takes is one more in both. -/
theorem Mirrors.write (mirrors : Mirrors store memory) {artifact : Artifact}
    (taken : (DirectoryStore.write (store, tree) artifact).result = .ok ())
    : Mirrors (DirectoryStore.write (store, tree) artifact).state.1 (memory.insert artifact) := by
  obtain ⟨_, _, _, recorded, counted, _⟩ := files_of_write taken
  constructor
  · rw [MemoryStore.manifest_insert, ← mirrors.recorded]
    exact congrArg Manifest.mk recorded
  · exact counted.trans (congrArg (· + 1) mirrors.counted)

/-- So are any number of artifacts, by induction on them. -/
theorem Mirrors.takes {artifacts : List Artifact} {state last : DirectoryStore × FileTree}
    (mirrors : Mirrors state.1 memory) (takes : DirectoryStore.write.Takes state artifacts last)
    : ∃ after,
        MemoryStore.write.Takes memory artifacts after
        ∧ after = artifacts.foldl MemoryStore.insert memory
        ∧ Mirrors last.1 after := by
  induction takes generalizing memory with
  | nil => exact ⟨memory, .nil, rfl, mirrors⟩
  | cons taken _ ih =>
      obtain ⟨after, takesMore, same, mirrored⟩ := ih (mirrors.write taken)
      exact ⟨after, .cons rfl takesMore, same, mirrored⟩

/-- A directory without a manifest that takes artifacts with proper names and finishes has the manifest
of a memory that takes the same artifacts. Under each name the file holds what the memory holds, and
the artifacts that were written or left unchanged are as many as the memory was given. The store
mirrors a memory from the start, and without an earlier manifest nothing is removed at the end.
-/
theorem takes_as_memory {artifacts : List Artifact} {last : DirectoryStore × FileTree}
    {manifest : Manifest}
    (absent : (tree.ensureDirectory root).1.readText (manifestPath root) = .error .absent)
    (named : ∀ artifact ∈ artifacts, artifact.IsNamed)
    (opened : (openAt root tree).result = .ok store)
    (takes : write.Takes (store, (openAt root tree).state) artifacts last)
    (finished : (last.1.finish last.2).result = .ok manifest)
    : ∃ memory,
        MemoryStore.write.Takes {} artifacts memory
        ∧ manifest = memory.manifest
        ∧ (∀ name artifact,
            memory.artifacts.get? name = some artifact
            → manifest.artifacts.get? name = some (.ofArtifact artifact)
              ∧ (last.1.finish last.2).state.readText (root.join artifact.relativePath.text)
                = .ok artifact.content)
        ∧ last.1.written + last.1.unchanged = memory.writes := by
  have follows
      : FollowsRuns root {} tree artifacts manifest (last.1.finish last.2).state :=
    ⟨.nothing absent, named, store, last, opened, takes, finished, rfl⟩
  have empty : Mirrors store {} := by
    obtain ⟨_, _, _, _, rfl⟩ := openAt_eq_ok opened
    exact ⟨rfl, rfl⟩
  obtain ⟨memory, remembers, same, mirrors⟩ := empty.takes takes
  obtain rfl : manifest = memory.manifest :=
    (clears_of_finish finished).1.trans mirrors.recorded
  refine ⟨memory, remembers, rfl, ?_, mirrors.counted⟩
  intro name artifact held
  subst same
  have ascending := MemoryStore.ascending_foldl_insert artifacts
  have member := (Ascending.lookup_eq_some_iff ascending).mp held
  have listed
      : (name, ManifestEntry.ofArtifact artifact)
        ∈ (artifacts.foldl MemoryStore.insert {}).manifest.artifacts.entries :=
    List.mem_map.mpr ⟨(name, artifact), member, rfl⟩
  constructor
  · refine (Ascending.lookup_eq_some_iff ?_).mpr listed
    exact List.pairwise_map.mpr ascending
  · obtain ⟨isLast, rfl⟩ := MemoryStore.mem_foldl_insert.mp member
    obtain ⟨base, last, rfl, previous, records, finished, after⟩ := follows.exists_records
    rw [← after, records.readText_of_finish finished isLast, if_neg]
    rintro ⟨recorded, among, _⟩
    rw [previous] at among
    exact absurd among List.not_mem_nil

/-- Three artifacts, of which the last one replaces the first one. -/
def replacedFactories : List Artifact :=
  [netFactory "HTTPClient" "one", netFactory "Pool" "pool", netFactory "HTTPClient" "two"]

/-- Witness: a factory that is written twice and another in between, in both stores. -/
theorem takes_as_memory_replacedFactories
    : ∃ last manifest memory,
        write.Takes (storeOfOut, (openAt ⟨"out"⟩ {}).state)
          replacedFactories last
        ∧ (last.1.finish last.2).result = .ok manifest
        ∧ MemoryStore.write.Takes {} replacedFactories memory
        ∧ manifest = memory.manifest
        ∧ last.1.written + last.1.unchanged = memory.writes := by
  let start := (storeOfOut, (openAt ⟨"out"⟩ {}).state)
  let afterOne := (write start (netFactory "HTTPClient" "one")).state
  let afterPool := (write afterOne (netFactory "Pool" "pool")).state
  -- in one go, since each goes on from the one before it
  obtain ⟨one, pool, two, completed⟩
      : (write start (netFactory "HTTPClient" "one")).result.toOption = some ()
        ∧ (write afterOne (netFactory "Pool" "pool")).result.toOption = some ()
        ∧ (write afterPool (netFactory "HTTPClient" "two")).result.toOption = some ()
        ∧ (run ⟨"out"⟩ {} replacedFactories).result.toOption
          = some (recording replacedFactories) := by
    decide +kernel
  have takes : write.Takes start replacedFactories (writeAll start replacedFactories) :=
    .cons (eq_ok_of_toOption_eq_some one)
      (.cons (eq_ok_of_toOption_eq_some pool) (.cons (eq_ok_of_toOption_eq_some two) .nil))
  obtain ⟨store, reopened, last, wrote, finished, _⟩ :=
    run_eq_ok (eq_ok_of_toOption_eq_some completed)
  obtain rfl := Except.ok.inj (openAt_out.symm.trans reopened)
  subst wrote
  obtain ⟨memory, remembers, same, _, counted⟩ :=
    takes_as_memory (by rfl) (by decide +kernel) openAt_out takes finished
  exact ⟨_, _, memory, takes, finished, remembers, same, counted⟩

end DirectoryStore

end Wiring
