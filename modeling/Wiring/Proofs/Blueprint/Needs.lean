import Wiring.Proofs.OrderedInsertion

/-! What a blueprint says of the injectables it was made from: which types are targets, which type
needs which, and which are left to the host.
-/

namespace Wiring

/-- Descriptors are collected by their targets. -/
theorem Injectable.collect_eq_collectBy (injectables : List Injectable)
    : Injectable.collect injectables = Ascending.collectBy Injectable.target injectables := by
  simp only [Injectable.collect, Ascending.collectBy, Injectable.insertInto_eq_insertBy]

/-- Injectables with targets of their own are all collected. -/
theorem Injectable.mem_collect_of_nodup {injectables : List Injectable}
    (distinct : (injectables.map Injectable.target).Nodup) {injectable : Injectable}
    : injectable ∈ Injectable.collect injectables ↔ injectable ∈ injectables := by
  rw [Injectable.collect_eq_collectBy, Ascending.mem_collectBy_of_nodup distinct]

namespace Blueprint

/-- A type needs its parameters. -/
def Needs (blueprint : Blueprint) (type parameter : TypeName) : Prop :=
  parameter ∈ blueprint.parametersOf type

/-- Only a target needs anything. -/
theorem Needs.mem_targets {blueprint : Blueprint} {type parameter : TypeName}
    (needs : blueprint.Needs type parameter)
    : type ∈ blueprint.targets := by
  unfold Needs parametersOf at needs
  cases found : blueprint.needs.lookup type with
  | none => simp [found] at needs
  | some parameters =>
      obtain ⟨front, back, split, _⟩ := List.lookup_eq_some_iff.mp found
      simp [targets, split]

/-- The entries of a blueprint ascend by target. -/
theorem pairwise_needs (injectables : List Injectable)
    : (ofInjectables injectables).needs.Pairwise (·.1 < ·.1) := by
  rw [ofInjectables, List.pairwise_map, Injectable.collect_eq_collectBy]
  exact Ascending.pairwise_collectBy injectables

/-- The parameters of a type are those of the injectable that counts for it, since a lookup among
ascending targets finds the one entry of a type.
-/
theorem needs_ofInjectables_iff {injectables : List Injectable} {type parameter : TypeName}
    : (ofInjectables injectables).Needs type parameter
      ↔ ∃ injectable ∈ Injectable.collect injectables,
          injectable.target = type ∧ parameter ∈ injectable.parameters := by
  have entry (parameters : List TypeName)
      : (ofInjectables injectables).needs.lookup type = some parameters
        ↔ ∃ injectable ∈ Injectable.collect injectables,
            injectable.target = type ∧ injectable.parameters = parameters := by
    rw [Ascending.lookup_eq_some_iff (pairwise_needs injectables)]
    simp [ofInjectables]
  unfold Needs parametersOf
  cases found : (ofInjectables injectables).needs.lookup type with
  | none =>
      simp only [Option.getD_none, List.not_mem_nil, false_iff]
      rintro ⟨injectable, member, rfl, _⟩
      have present := (entry injectable.parameters).mpr ⟨injectable, member, rfl, rfl⟩
      simp [found] at present
  | some parameters =>
      obtain ⟨injectable, member, same, rfl⟩ := (entry parameters).mp found
      simp only [Option.getD_some]
      constructor
      · intro needed
        exact ⟨injectable, member, same, needed⟩
      · rintro ⟨other, inOther, equal, needed⟩
        have present := (entry other.parameters).mpr ⟨other, inOther, equal, rfl⟩
        rwa [Option.some.inj (found.symm.trans present)]

/-- The targets of a blueprint are those of its descriptors. -/
theorem mem_targets_ofInjectables {injectables : List Injectable} {type : TypeName}
    : type ∈ (ofInjectables injectables).targets
      ↔ ∃ injectable ∈ Injectable.collect injectables, injectable.target = type := by
  simp [targets, ofInjectables]

/-- The types left to the host are inserted one after the other. -/
theorem leftToHost_eq_collectBy (blueprint : Blueprint)
    : blueprint.leftToHost
      = Ascending.collectBy id
          ((blueprint.needs.flatMap (·.2)).filter fun type =>
            !blueprint.targets.contains type) := by
  simp only [leftToHost, Ascending.collectBy, insertType_eq_insertBy]

/-- The types left to the host are listed once each, in ascending order. -/
theorem pairwise_leftToHost (blueprint : Blueprint)
    : blueprint.leftToHost.Pairwise (· < ·) := by
  rw [leftToHost_eq_collectBy]
  change List.Pairwise (id · < id ·) _
  exact Ascending.pairwise_collectBy _

/-- The types left to the host are those that are needed and are no target. -/
theorem mem_leftToHost_ofInjectables {injectables : List Injectable} {type : TypeName}
    : type ∈ (ofInjectables injectables).leftToHost
      ↔ (∃ injectable ∈ Injectable.collect injectables, type ∈ injectable.parameters)
        ∧ ∀ injectable ∈ Injectable.collect injectables, injectable.target ≠ type := by
  have kept (types : List TypeName) : type ∈ Ascending.collectBy id types ↔ type ∈ types := by
    have same
        : (∃ kept ∈ Ascending.collectBy id types, id kept = type)
          ↔ ∃ given ∈ types, id given = type :=
      Ascending.exists_mem_collectBy
    simpa using same
  rw [leftToHost_eq_collectBy, kept]
  simp [ofInjectables, targets]

end Blueprint

end Wiring
