import Wiring.Proofs.Container.GeneratedTable

/-! The search for a cycle foretells whether resolving ends. It looks at the injectables alone, and
what it says of them holds of every container over their table, whatever the host has bound.
-/

namespace Wiring.Container

variable {keyOf : TypeName → TypeKey} {injectables : List Injectable} {bindings : Bindings}

-----------------------------------------------------------------------------------------
-- Without a cycle
-----------------------------------------------------------------------------------------

/-- A key ends when it does so as that of a target; without a row it ends at once. -/
theorem ends_of_targets {key : TypeKey}
    (targets : ∀ injectable ∈ injectables,
      keyOf injectable.target = key
      → ∃ depth, (generated keyOf injectables bindings).EndsWithin depth key)
    : ∃ depth, (generated keyOf injectables bindings).EndsWithin depth key := by
  cases found : Recipe.find? (generated keyOf injectables bindings).recipes key with
  | none => exact exists_endsWithin (by simp [found])
  | some recipe =>
      obtain ⟨injectable, member, _, same⟩ := exists_injectable_of_find? found
      exact targets injectable member same.symm

/-- Targets in an order in which each follows what it needs all end, by induction on the order: a
parameter is settled before the target that needs it, or is no target at all.
-/
theorem ends_of_settled (distinct : (injectables.map Injectable.target).Nodup)
    (apart : TypeKey.TellsApart keyOf injectables) {order : List TypeName}
    (settled : (Blueprint.ofInjectables injectables).Settled order)
    : ∀ type ∈ order,
        ∀ injectable ∈ injectables,
          injectable.target = type
          → ∃ depth, (generated keyOf injectables bindings).EndsWithin depth (keyOf type) := by
  induction settled with
  | nil => simp
  | @snoc done last _ met ih =>
      rintro type inOrder injectable member rfl
      rcases List.mem_append.mp inOrder with earlier | isLast
      · exact ih _ earlier injectable member rfl
      · obtain rfl : injectable.target = last := by simpa using isLast
        apply exists_endsWithin
        intro recipe found key needed
        obtain rfl := Option.some.inj ((find?_generated distinct apart member).symm.trans found)
        obtain ⟨parameter, wanted, rfl⟩ := List.mem_map.mp needed
        have before : parameter ∈ done := by
          refine met _ (Blueprint.needs_ofInjectables_iff.mpr ⟨injectable, ?_, rfl, wanted⟩)
          exact (Injectable.mem_collect_of_nodup distinct).mpr member
        apply ends_of_targets
        intro other inOther same
        have target := apart _ (mem_mentioned_target inOther) _
          (mem_mentioned_parameter member wanted) same
        exact ih parameter before other inOther target

/-- Where the search reports no cycle, every key ends within one level more than there are
injectables.
-/
theorem endsWithin_of_firstCycle?_eq_none (distinct : (injectables.map Injectable.target).Nodup)
    (apart : TypeKey.TellsApart keyOf injectables)
    (clear : (Blueprint.ofInjectables injectables).firstCycle? = none) (key : TypeKey)
    : (generated keyOf injectables bindings).EndsWithin (injectables.length + 1) key := by
  obtain ⟨order, settled, covered⟩ := Blueprint.exists_settled_of_firstCycle?_eq_none clear
  obtain ⟨depth, ends⟩
      : ∃ depth, (generated keyOf injectables bindings).EndsWithin depth key := by
    apply ends_of_targets
    rintro injectable member rfl
    have target : injectable.target ∈ (Blueprint.ofInjectables injectables).targets :=
      Blueprint.mem_targets_ofInjectables.mpr
        ⟨injectable, (Injectable.mem_collect_of_nodup distinct).mpr member, rfl⟩
    exact ends_of_settled distinct apart settled _ (covered target) injectable member rfl
  rw [← @depthLimit_generated keyOf injectables bindings]
  exact ends.depthLimit

-----------------------------------------------------------------------------------------
-- On a cycle
-----------------------------------------------------------------------------------------

/-- Keys that nothing is bound under, and whose rows, where they have any, need one of them. -/
structure Hopeless (container : Container) (keys : List TypeKey) : Prop where
  unbound : ∀ key ∈ keys, container.bindings.get? key = none
  leadsBack
    : ∀ key ∈ keys,
        ∀ recipe,
          Recipe.find? container.recipes key = some recipe
          → ∃ parameter ∈ recipe.parameters, parameter ∈ keys

/-- No step of resolving succeeds for a hopeless key, or for keys among which there is one. What is
built would need a parameter among the hopeless keys.
-/
theorem Hopeless.invariant {container : Container} {keys : List TypeKey}
    (hopeless : container.Hopeless keys)
    : container.Invariant
        (fun _ key outcome => ∀ value, outcome.result = .ok value → key ∉ keys)
        (fun _ others outcome =>
          ∀ values, outcome.result = .ok values → ∀ key ∈ others, key ∉ keys) where
  taken bound := by
    intro _ _ member
    simp [hopeless.unbound _ member] at bound
  missing _ _ := by simp
  spoiled _ _ _ _ := by simp
  built unbound found parameters succeeded := by
    intro _ _ member
    obtain ⟨parameter, needed, back⟩ := hopeless.leadsBack _ member _ found
    exact parameters _ succeeded parameter needed back
  finished := by simp
  stuck _ _ := by simp
  advanced {made first rest value head others} one succeeded _ each := by
    intro values same
    obtain ⟨further, remaining, rfl⟩ := map_eq_ok_iff.mp same
    exact List.forall_mem_cons.mpr ⟨one value succeeded, each further remaining⟩

/-- The types on a reported cycle are hopeless as long as the host binds none of them. The recipe of
each of them asks for the next one.
-/
theorem hopeless_of_firstCycle? (distinct : (injectables.map Injectable.target).Nodup)
    (apart : TypeKey.TellsApart keyOf injectables) {cycle : List TypeName}
    (reported : (Blueprint.ofInjectables injectables).firstCycle? = some cycle)
    (unbound : ∀ type ∈ cycle, bindings.get? (keyOf type) = none)
    : (generated keyOf injectables bindings).Hopeless (cycle.map keyOf) where
  unbound key member := by
    obtain ⟨type, onCycle, rfl⟩ := List.mem_map.mp member
    exact unbound type onCycle
  leadsBack key member recipe found := by
    obtain ⟨type, onCycle, rfl⟩ := List.mem_map.mp member
    obtain ⟨next, back, needs⟩ :=
      (Blueprint.isCycle_of_firstCycle? reported).exists_needs onCycle
    obtain ⟨injectable, collected, rfl, needed⟩ := Blueprint.needs_ofInjectables_iff.mp needs
    have present := (Injectable.mem_collect_of_nodup distinct).mp collected
    obtain rfl := Option.some.inj ((find?_generated distinct apart present).symm.trans found)
    exact ⟨keyOf next, List.mem_map_of_mem needed, List.mem_map_of_mem back⟩

/-- Whether the search reports a cycle decides whether resolving ends. Where it reports none, every key
ends in every container over the table, within one level more than there are injectables. Where it
reports one, no type on it is ever resolved as long as the host binds none of them. Without a cycle no
chain of requirements is longer than the table; the types on one are hopeless.
-/
theorem firstCycle?_decides (distinct : (injectables.map Injectable.target).Nodup)
    (apart : TypeKey.TellsApart keyOf injectables)
    : ((Blueprint.ofInjectables injectables).firstCycle? = none
        → ∀ bindings made key,
            ∃ outcome,
              (generated keyOf injectables bindings).resolveWithin (injectables.length + 1) made key
              = some outcome)
      ∧ ∀ cycle,
          (Blueprint.ofInjectables injectables).firstCycle? = some cycle
          → ∀ bindings : Bindings,
              (∀ type ∈ cycle, bindings.get? (keyOf type) = none)
              → ∀ type ∈ cycle,
                  ∀ depth made outcome,
                    (generated keyOf injectables bindings).resolveWithin depth made (keyOf type)
                      = some outcome
                    → ∀ value, outcome.result ≠ .ok value := by
  constructor
  · intro clear bindings made key
    exact (endsWithin_iff made).mp (endsWithin_of_firstCycle?_eq_none distinct apart clear key)
  · intro cycle reported bindings unbound type onCycle depth made outcome ends value succeeded
    have hopeless := hopeless_of_firstCycle? distinct apart reported unbound
    exact hopeless.invariant.resolveWithin ends value succeeded (List.mem_map_of_mem onCycle)

/-- A type of the crate whose constructor takes other types of it. -/
def needing (name : String) (parameters : List String) : Injectable := {
  target := ⟨"crate", name⟩
  constructor := "new"
  parameters := parameters.map (TypeName.mk "crate")
  location := ⟨⟨"src/lib.rs"⟩, 1⟩
}

/-- An application over a cache and a store that need each other. -/
def circular : List Injectable :=
  [needing "App" ["Cache", "Store"], needing "Cache" ["Store"], needing "Store" ["Cache"]]

/-- The same with a store that stands on its own. -/
def layered : List Injectable :=
  [needing "App" ["Cache", "Store"], needing "Cache" ["Store"], needing "Store" []]

/-- Witness: two types that need one another never have a value at any depth, while the layered
ones end at depth four whatever is bound.
-/
theorem firstCycle?_decides_circular_layered
    : (∀ depth made outcome,
        (generated (⟨·.qualified⟩) circular {}).resolveWithin depth made ⟨"crate::Store"⟩
          = some outcome
        → ∀ value, outcome.result ≠ .ok value)
      ∧ ∀ bindings made key,
          ∃ outcome,
            (generated (⟨·.qualified⟩) layered bindings).resolveWithin 4 made key = some outcome := by
  constructor
  · have reported
        : (Blueprint.ofInjectables circular).firstCycle?
          = some [⟨"crate", "Cache"⟩, ⟨"crate", "Store"⟩, ⟨"crate", "Cache"⟩] := by
      decide
    exact (firstCycle?_decides (by decide) (by decide)).2 _ reported {} (fun _ _ => rfl)
      ⟨"crate", "Store"⟩ (by decide)
  · exact (firstCycle?_decides (by decide) (by decide)).1 (by decide)

end Wiring.Container
