import Mathlib.Data.List.Nodup
import Wiring.Proofs.Blueprint.Needs

/-! The search for a cycle as it runs when nothing limits it. Every search of a blueprint comes to
an end: only targets lead on, so a path without repetition is no longer than there are targets, and
the fuel of the search is never used up.
-/

namespace Wiring.Blueprint

variable {blueprint : Blueprint}

namespace Search

/-- What searching below a type comes to, from what its parameters come to. -/
def leaving (type : TypeName) : Search → Search
  | cycle path => .cycle path
  | clear done => .clear (done ++ [type])

/-- The cycle that a search has found, if any. -/
def cycle? : Search → Option (List TypeName)
  | cycle path => some path
  | clear _ => none

end Search

/-- Going through types in turn, reached over `path` and with those in `done` known to lead to no
cycle, ends with `found`: at a type on the path, or after the last of the types. Each type that is
neither on the path nor done is searched below, through its parameters.
-/
inductive SearchEnds (blueprint : Blueprint)
    : List TypeName → List TypeName → List TypeName → Search → Prop
  | finished {path done}
    : SearchEnds blueprint path done [] (.clear done)
  | closed {path done type rest} (onPath : type ∈ path)
    : SearchEnds blueprint path done (type :: rest) (.cycle (closeAt type path))
  | known {path done type rest found} (offPath : type ∉ path) (seen : type ∈ done)
    (later : SearchEnds blueprint path done rest found)
    : SearchEnds blueprint path done (type :: rest) found
  | stopped {path done type rest cycle} (offPath : type ∉ path) (unseen : type ∉ done)
    (below : SearchEnds blueprint (path ++ [type]) done (blueprint.parametersOf type) (.cycle cycle))
    : SearchEnds blueprint path done (type :: rest) (.cycle cycle)
  | passed {path done type rest more found} (offPath : type ∉ path) (unseen : type ∉ done)
    (below : SearchEnds blueprint (path ++ [type]) done (blueprint.parametersOf type) (.clear more))
    (later : SearchEnds blueprint path (more ++ [type]) rest found)
    : SearchEnds blueprint path done (type :: rest) found

/-- Going through types in turn ends when searching below each of them does, by induction on the
types.
-/
theorem searchEnds_of_searchEach (visit : List TypeName → TypeName → Search)
    {path types : List TypeName}
    (below : ∀ type ∈ types,
      type ∉ path
      → ∀ done,
          ∃ found,
            blueprint.SearchEnds (path ++ [type]) done (blueprint.parametersOf type) found
            ∧ visit done type = found.leaving type)
    (done : List TypeName)
    : blueprint.SearchEnds path done types (searchEach visit path done types) := by
  induction types generalizing done with
  | nil => exact .finished
  | cons type rest ih =>
      have later := ih fun other member => below other (List.mem_cons_of_mem type member)
      unfold searchEach
      split
      · rename_i onPath
        exact .closed (by simpa using onPath)
      · rename_i offPath
        have offPath : type ∉ path := by simpa using offPath
        split
        · rename_i seen
          exact .known offPath (by simpa using seen) (later done)
        · rename_i unseen
          have unseen : type ∉ done := by simpa using unseen
          obtain ⟨found, ends, visited⟩ := below type (by simp) offPath done
          rw [visited]
          cases found with
          | cycle found => exact .stopped offPath unseen ends
          | clear more => exact .passed offPath unseen ends (later (more ++ [type]))

/-- Searching below a type ends, by induction on the fuel: the path to the type holds different
targets, so there is fuel left for each step down.
-/
theorem exists_searchEnds_of_searchBelow {fuel : Nat} {path : List TypeName} {type : TypeName}
    (targets : path ⊆ blueprint.targets) (distinct : (path ++ [type]).Nodup)
    (enough : blueprint.size < fuel + path.length) (done : List TypeName)
    : ∃ found,
        blueprint.SearchEnds (path ++ [type]) done (blueprint.parametersOf type) found
        ∧ blueprint.searchBelow fuel path done type = found.leaving type := by
  induction fuel generalizing path type done with
  | zero =>
      have bound := (List.nodup_append.mp distinct).1.length_le_of_subset targets
      rw [Blueprint.targets, List.length_map] at bound
      rw [size] at enough
      omega
  | succ fuel ih =>
      refine ⟨_, searchEnds_of_searchEach (blueprint.searchBelow fuel (path ++ [type])) ?_ done, ?_⟩
      · intro parameter needed apart done
        have target : type ∈ blueprint.targets := Needs.mem_targets needed
        refine ih ?_ ?_ ?_ done
        · exact List.append_subset.mpr ⟨targets, List.cons_subset.mpr ⟨target, List.nil_subset _⟩⟩
        · simpa only [List.concat_eq_append] using distinct.concat apart
        · rw [List.length_append, List.length_singleton]
          omega
      · rw [searchBelow]
        cases searchEach (blueprint.searchBelow fuel (path ++ [type])) (path ++ [type]) done
          (blueprint.parametersOf type) <;> rfl

/-- The search of a blueprint ends, and what it ends with is what is reported. -/
theorem exists_searchEnds (blueprint : Blueprint)
    : ∃ found,
        blueprint.SearchEnds [] [] blueprint.targets found
        ∧ blueprint.firstCycle? = found.cycle? := by
  refine ⟨_, searchEnds_of_searchEach (blueprint.searchBelow (blueprint.size + 1) []) ?_ [], ?_⟩
  · intro type _ _ done
    exact exists_searchEnds_of_searchBelow (List.nil_subset _) (by simp) (by simp) done
  · rw [firstCycle?]
    cases searchEach (blueprint.searchBelow (blueprint.size + 1) []) [] [] blueprint.targets <;> rfl

end Wiring.Blueprint
