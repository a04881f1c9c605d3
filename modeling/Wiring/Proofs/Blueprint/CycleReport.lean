import Wiring.Proofs.Blueprint.CycleSearch

/-! What the report of a cycle says of the injectables themselves. It depends on the injectables
that count, and not on the order in which they are given.
-/

namespace Wiring

/-- The injectable counts: no later one has its target. -/
def Injectable.Counts (injectables : List Injectable) (injectable : Injectable) : Prop :=
  ∃ front back,
    injectables = front ++ injectable :: back ∧ ∀ later ∈ back, later.target ≠ injectable.target

/-- A target requires the parameters of the injectable that counts for it. -/
def Injectable.Requires (injectables : List Injectable) (type parameter : TypeName) : Prop :=
  ∃ injectable,
    Injectable.Counts injectables injectable
    ∧ injectable.target = type
    ∧ parameter ∈ injectable.parameters

/-- Collecting keeps the descriptors that count, by the general lemma on collecting by key. -/
theorem Injectable.mem_collect_iff_counts {injectables : List Injectable} {injectable : Injectable}
    : injectable ∈ Injectable.collect injectables ↔ Injectable.Counts injectables injectable := by
  rw [Injectable.collect_eq_collectBy, Ascending.mem_collectBy]
  rfl

/-- Injectables with targets of their own are collected alike in every order. -/
theorem Injectable.collect_perm {injectables others : List Injectable}
    (distinct : (injectables.map Injectable.target).Nodup) (perm : injectables.Perm others)
    : Injectable.collect others = Injectable.collect injectables := by
  rw [Injectable.collect_eq_collectBy, Injectable.collect_eq_collectBy]
  exact Ascending.foldl_insertBy_perm perm distinct []

namespace Blueprint

/-- In the blueprint of injectables a type needs what it requires. -/
theorem needs_ofInjectables (injectables : List Injectable)
    : (ofInjectables injectables).Needs = Injectable.Requires injectables := by
  funext type parameter
  simp only [needs_ofInjectables_iff, Injectable.mem_collect_iff_counts, Injectable.Requires]

/-- The search for a cycle is exact. It ends, and reports what it ends with. It reports nothing if and
only if no type requires itself, neither at once nor through others. What it reports is a path of at
least two types that ends where it began, with no other type on it twice, each requiring the next one.
For injectables with targets of their own the report, and what is left to the host, are the same in
every order. The search runs over what is required, so its laws are read through `needs_ofInjectables`;
another order of injectables makes the same blueprint.
-/
theorem firstCycle?_exact (injectables : List Injectable)
    : (∃ found,
          (ofInjectables injectables).SearchEnds [] [] (ofInjectables injectables).targets found
          ∧ (ofInjectables injectables).firstCycle? = found.cycle?)
      ∧ ((ofInjectables injectables).firstCycle? = none
          ↔ ∀ type, ¬ Relation.TransGen (Injectable.Requires injectables) type type)
      ∧ (∀ path,
          (ofInjectables injectables).firstCycle? = some path
          → 2 ≤ path.length
            ∧ path.head? = path.getLast?
            ∧ path.dropLast.Nodup
            ∧ path.IsChain (Injectable.Requires injectables))
      ∧ ((injectables.map Injectable.target).Nodup
          → ∀ others,
              injectables.Perm others
              → (ofInjectables others).firstCycle? = (ofInjectables injectables).firstCycle?
                ∧ (ofInjectables others).leftToHost = (ofInjectables injectables).leftToHost) := by
  refine ⟨exists_searchEnds _, ?_, ?_, ?_⟩
  · rw [firstCycle?_eq_none_iff, Acyclic, needs_ofInjectables]
  · intro path reported
    have isCycle := isCycle_of_firstCycle? reported
    rw [← needs_ofInjectables]
    exact ⟨isCycle.long, isCycle.closed, isCycle.distinct, isCycle.chain⟩
  · intro distinct others perm
    have same : ofInjectables others = ofInjectables injectables := by
      rw [ofInjectables, Injectable.collect_perm distinct perm, ofInjectables]
    exact ⟨congrArg firstCycle? same, congrArg leftToHost same⟩

/-- An application over a cache and a store that need each other. -/
def cachedStore : List Injectable :=
  [("App", ["Cache"]), ("Cache", ["Log", "Store"]), ("Store", ["Cache", "Log"])].map
    fun (name, parameters) => {
      target := ⟨"crate", name⟩
      constructor := "new"
      parameters := parameters.map (TypeName.mk "crate")
      location := ⟨⟨"src/lib.rs"⟩, 1⟩
    }

/-- Whichever way round they are given, the cycle behind the application is reported from the cache
on, and the log is left to the host.
-/
theorem firstCycle?_exact_cachedStore
    : (ofInjectables cachedStore.reverse).firstCycle?
        = some [⟨"crate", "Cache"⟩, ⟨"crate", "Store"⟩, ⟨"crate", "Cache"⟩]
      ∧ (ofInjectables cachedStore.reverse).leftToHost = [⟨"crate", "Log"⟩]
      ∧ [⟨"crate", "Cache"⟩, ⟨"crate", "Store"⟩, ⟨"crate", "Cache"⟩].IsChain
          (Injectable.Requires cachedStore) := by
  obtain ⟨_, _, chain, ordered⟩ := firstCycle?_exact cachedStore
  obtain ⟨sameCycle, sameLeft⟩ := ordered (by decide) cachedStore.reverse
    (List.reverse_perm cachedStore).symm
  have reported
      : (ofInjectables cachedStore).firstCycle?
        = some [⟨"crate", "Cache"⟩, ⟨"crate", "Store"⟩, ⟨"crate", "Cache"⟩] := by
    decide
  exact ⟨sameCycle.trans reported, sameLeft.trans (by decide), (chain _ reported).2.2.2⟩

end Blueprint

end Wiring
