import Wiring.Proofs.Container.Faults
import Wiring.Proofs.Container.Termination

/-! What the host has to bind. The types that a blueprint leaves to it are enough to resolve every
target, none of them can be spared, and nothing else is ever reported missing.
-/

namespace Wiring

/-- The bindings hold the keys of all the types but one, and nothing else. -/
def Bindings.HoldsAllBut (bindings : Bindings) (keyOf : TypeName → TypeKey)
    (types : List TypeName) (type : TypeName)
    : Prop :=
  ∀ key,
    bindings.contains key = true ↔ ∃ other ∈ types, other ≠ type ∧ keyOf other = key

namespace Container

/-- The container finds or makes an instance for the key. -/
def Succeeds (container : Container) (made : Nat) (key : TypeKey) : Prop :=
  ∃ outcome value, container.resolve? made key = some outcome ∧ outcome.result = .ok value

/-- The container gives the key up because of the fault. -/
def Fails (container : Container) (made : Nat) (key : TypeKey) (fault : ResolutionFault) : Prop :=
  ∃ outcome, container.resolve? made key = some outcome ∧ outcome.result = .error fault

variable {keyOf : TypeName → TypeKey} {injectables : List Injectable} {bindings : Bindings}

/-- The rows of a generated table make what they stand for. -/
theorem makesOwnTypes_generated
    : (generated keyOf injectables bindings).MakesOwnTypes := by
  intro key recipe found
  obtain ⟨injectable, _, rfl, same⟩ := exists_injectable_of_find? found
  exact same.symm

/-- The types left to the host are the parameters that are no target. -/
theorem mem_leftToHost_iff (distinct : (injectables.map Injectable.target).Nodup)
    {type : TypeName}
    : type ∈ (Blueprint.ofInjectables injectables).leftToHost
      ↔ (∃ injectable ∈ injectables, type ∈ injectable.parameters)
        ∧ ∀ injectable ∈ injectables, injectable.target ≠ type := by
  simp only [Blueprint.mem_leftToHost_ofInjectables, Injectable.mem_collect_of_nodup distinct]

/-- What is reported missing for a target is a type left to the host that it has not bound. What is
missing has no row, so it is no target, and a recipe has asked for it.
-/
theorem mem_leftToHost_of_missing (distinct : (injectables.map Injectable.target).Nodup)
    (apart : TypeKey.TellsApart keyOf injectables) {injectable : Injectable}
    (member : injectable ∈ injectables) {made : Nat} {absent : TypeKey}
    (fails
      : (generated keyOf injectables bindings).Fails made (keyOf injectable.target)
          (.missing absent))
    : ∃ type ∈ (Blueprint.ofInjectables injectables).leftToHost,
        keyOf type = absent ∧ bindings.get? absent = none := by
  obtain ⟨outcome, ends, failed⟩ := fails
  obtain ⟨lacks, rfl | ⟨_, recipe, found, asked⟩⟩ :=
    (invariant_missing _).resolveWithin ends absent failed
  · exact absurd (lacks.rowless.symm.trans (find?_generated distinct apart member)) (by simp)
  · obtain ⟨other, inOther, rfl, _⟩ := exists_injectable_of_find? found
    obtain ⟨parameter, needed, rfl⟩ := List.mem_map.mp asked
    have noTarget :=
      (find?_generated_eq_none_iff apart (mem_mentioned_parameter inOther needed)).mp lacks.rowless
    exact ⟨parameter, (mem_leftToHost_iff distinct).mpr ⟨⟨other, inOther, needed⟩, noTarget⟩, rfl,
      lacks.unbound⟩

/-- Without cycles and with typed bindings, a target succeeds or something is missing for it. The
resolution ends, and over typed bindings it fails over nothing else.
-/
theorem succeeds_or_missing (distinct : (injectables.map Injectable.target).Nodup)
    (apart : TypeKey.TellsApart keyOf injectables)
    (acyclic : (Blueprint.ofInjectables injectables).Acyclic) (typed : bindings.Typed)
    (made : Nat) (key : TypeKey)
    : (generated keyOf injectables bindings).Succeeds made key
      ∨ ∃ absent, (generated keyOf injectables bindings).Fails made key (.missing absent) := by
  have clear := Blueprint.firstCycle?_eq_none_iff.mpr acyclic
  have within : (generated keyOf injectables bindings).EndsWithin _ key :=
    endsWithin_of_firstCycle?_eq_none distinct apart clear key
  obtain ⟨outcome, ends⟩ := (endsWithin_iff made).mp within.depthLimit
  obtain ⟨_, missing⟩ := (invariant_typed typed makesOwnTypes_generated).resolveWithin ends
  cases result : outcome.result with
  | ok value => exact .inl ⟨outcome, value, ends, result⟩
  | error fault =>
      obtain ⟨absent, rfl⟩ := missing fault result
      exact .inr ⟨absent, outcome, ends, result⟩

/-- An injectable that needs an unbound type without a row never succeeds. The two types are hopeless:
each is unbound, and the recipe of the one asks for the other.
-/
theorem not_succeeds_of_unbound (distinct : (injectables.map Injectable.target).Nodup)
    (apart : TypeKey.TellsApart keyOf injectables) {injectable : Injectable}
    (member : injectable ∈ injectables) {type : TypeName} (needed : type ∈ injectable.parameters)
    (noTarget : ∀ other ∈ injectables, other.target ≠ type)
    (unboundTarget : bindings.get? (keyOf injectable.target) = none)
    (unboundType : bindings.get? (keyOf type) = none) (made : Nat)
    : ¬ (generated keyOf injectables bindings).Succeeds made (keyOf injectable.target) := by
  have mentioned := mem_mentioned_parameter member needed
  have hopeless
      : (generated keyOf injectables bindings).Hopeless
          [keyOf injectable.target, keyOf type] := by
    constructor
    · simpa using ⟨unboundTarget, unboundType⟩
    · intro key among recipe found
      rcases List.mem_pair.mp among with rfl | rfl
      · obtain rfl := Option.some.inj ((find?_generated distinct apart member).symm.trans found)
        exact ⟨keyOf type, List.mem_map_of_mem needed, by simp⟩
      · rw [(find?_generated_eq_none_iff apart mentioned).mpr noTarget] at found
        simp at found
  rintro ⟨outcome, value, ends, succeeded⟩
  exact hopeless.invariant.resolveWithin ends value succeeded (by simp)

/-- Of the types that injectables mention, such bindings hold only those left to the host, without the
one.
-/
theorem unbound_of_holdsAllBut (distinct : (injectables.map Injectable.target).Nodup)
    (apart : TypeKey.TellsApart keyOf injectables) {type other : TypeName}
    (others
      : bindings.HoldsAllBut keyOf (Blueprint.ofInjectables injectables).leftToHost type)
    (mentioned : other ∈ Injectable.mentioned injectables)
    (outside : other = type ∨ other ∉ (Blueprint.ofInjectables injectables).leftToHost)
    : bindings.get? (keyOf other) = none := by
  by_contra bound
  obtain ⟨found, listed, differs, same⟩ :=
    (others (keyOf other)).mp (Option.isSome_iff_ne_none.mpr bound)
  obtain ⟨⟨holder, inHolder, wanted⟩, _⟩ := (mem_leftToHost_iff distinct).mp listed
  obtain rfl := apart _ (mem_mentioned_parameter inHolder wanted) _ mentioned same
  exact outside.elim differs (fun absent => absent listed)

/-- When one type alone is left out, some target fails for want of it: one that needs it fails, and
nothing else is missing. It is a target that needs the type; it does not succeed, and what is missing
for it is left to the host and not bound.
-/
theorem exists_fails_of_holdsAllBut (distinct : (injectables.map Injectable.target).Nodup)
    (apart : TypeKey.TellsApart keyOf injectables)
    (acyclic : (Blueprint.ofInjectables injectables).Acyclic) {type : TypeName}
    (left : type ∈ (Blueprint.ofInjectables injectables).leftToHost) (typed : bindings.Typed)
    (others
      : bindings.HoldsAllBut keyOf (Blueprint.ofInjectables injectables).leftToHost type)
    : ∃ injectable ∈ injectables,
        ∀ made,
          (generated keyOf injectables bindings).Fails made (keyOf injectable.target)
            (.missing (keyOf type)) := by
  obtain ⟨⟨injectable, member, needed⟩, noTarget⟩ := (mem_leftToHost_iff distinct).mp left
  have unboundType : bindings.get? (keyOf type) = none :=
    unbound_of_holdsAllBut distinct apart others (mem_mentioned_parameter member needed) (.inl rfl)
  have unboundTarget : bindings.get? (keyOf injectable.target) = none := by
    refine unbound_of_holdsAllBut distinct apart others (mem_mentioned_target member) (.inr ?_)
    intro listed
    exact ((mem_leftToHost_iff distinct).mp listed).2 injectable member rfl
  refine ⟨injectable, member, ?_⟩
  intro made
  rcases succeeds_or_missing distinct apart acyclic typed made (keyOf injectable.target) with
    succeeds | ⟨absent, fails⟩
  · exact absurd succeeds
      (not_succeeds_of_unbound distinct apart member needed noTarget unboundTarget unboundType made)
  · obtain ⟨other, listed, rfl, absent⟩ := mem_leftToHost_of_missing distinct apart member fails
    have same : other = type := by
      by_contra differs
      have present := (others (keyOf other)).mpr ⟨other, listed, differs, rfl⟩
      simp [Bindings.contains, absent] at present
    exact same ▸ fails

/-- What is left to the host is exactly what it has to bind. It is the ascending list of the parameters
that are no target; with all of it bound every target succeeds; whatever is reported missing for a
target belongs to it; and when one type of it alone is left out, some target fails for want of that
very type. Every part comes down to what can be missing for a target: a type left to the host that is
not bound.
-/
theorem leftToHost_exact (distinct : (injectables.map Injectable.target).Nodup)
    (apart : TypeKey.TellsApart keyOf injectables)
    (acyclic : (Blueprint.ofInjectables injectables).Acyclic)
    : ((Blueprint.ofInjectables injectables).leftToHost.Pairwise (· < ·)
        ∧ ∀ type,
            type ∈ (Blueprint.ofInjectables injectables).leftToHost
            ↔ (∃ injectable ∈ injectables, type ∈ injectable.parameters)
              ∧ ∀ injectable ∈ injectables, injectable.target ≠ type)
      ∧ (∀ bindings : Bindings,
          bindings.Typed
          → (∀ type ∈ (Blueprint.ofInjectables injectables).leftToHost,
              bindings.contains (keyOf type) = true)
          → ∀ injectable ∈ injectables,
              ∀ made,
                (generated keyOf injectables bindings).Succeeds made (keyOf injectable.target))
      ∧ (∀ bindings : Bindings,
          ∀ injectable ∈ injectables,
            ∀ made absent,
              (generated keyOf injectables bindings).Fails made (keyOf injectable.target)
                (.missing absent)
              → ∃ type ∈ (Blueprint.ofInjectables injectables).leftToHost, keyOf type = absent)
      ∧ ∀ type ∈ (Blueprint.ofInjectables injectables).leftToHost,
          ∀ bindings : Bindings,
            bindings.Typed
            → bindings.HoldsAllBut keyOf (Blueprint.ofInjectables injectables).leftToHost type
            → ∃ injectable ∈ injectables,
                ∀ made,
                  (generated keyOf injectables bindings).Fails made (keyOf injectable.target)
                    (.missing (keyOf type)) := by
  refine ⟨⟨Blueprint.pairwise_leftToHost _, fun type => mem_leftToHost_iff distinct⟩, ?_, ?_, ?_⟩
  · intro bindings typed bound injectable member made
    rcases succeeds_or_missing distinct apart acyclic typed made (keyOf injectable.target) with
      succeeds | ⟨absent, fails⟩
    · exact succeeds
    · obtain ⟨type, left, rfl, unbound⟩ := mem_leftToHost_of_missing distinct apart member fails
      have present := bound type left
      simp [Bindings.contains, unbound] at present
  · intro bindings injectable member made absent fails
    obtain ⟨type, left, same, _⟩ := mem_leftToHost_of_missing distinct apart member fails
    exact ⟨type, left, same⟩
  · intro type left bindings typed others
    exact exists_fails_of_holdsAllBut distinct apart acyclic left typed others

/-- A view over a store; the host binds the context for both, and the log. -/
def hosted : List Injectable :=
  [needing "View" ["Context", "Store"], needing "Store" ["Log", "Context"]]

/-- The context that the host holds. -/
def context : Instance :=
  .mk 1 ⟨"crate::Context"⟩ none []

/-- Witness: a context and a log are left to the host, and with the context alone some target fails for
want of the log.
-/
theorem leftToHost_exact_hosted
    : (Blueprint.ofInjectables hosted).leftToHost = [⟨"crate", "Context"⟩, ⟨"crate", "Log"⟩]
      ∧ ∃ injectable ∈ hosted,
          ∀ made,
            (generated (⟨·.qualified⟩) hosted (Bindings.insert {} context.type context)).Fails made
              ⟨injectable.target.qualified⟩ (.missing ⟨"crate::Log"⟩) := by
  have left
      : (Blueprint.ofInjectables hosted).leftToHost
        = [⟨"crate", "Context"⟩, ⟨"crate", "Log"⟩] := by
    decide
  have acyclic : (Blueprint.ofInjectables hosted).Acyclic :=
    Blueprint.firstCycle?_eq_none_iff.mp (by decide)
  obtain ⟨_, _, _, needed⟩ :=
    leftToHost_exact (by decide : (hosted.map Injectable.target).Nodup)
      (by decide : TypeKey.TellsApart (⟨·.qualified⟩) hosted) acyclic
  refine ⟨left, needed ⟨"crate", "Log"⟩ (by simp [left]) _ (Bindings.Typed.empty.insert context) ?_⟩
  intro key
  have apart : (⟨"crate", "Context"⟩ : TypeName) ≠ ⟨"crate", "Log"⟩ := by decide
  simp only [left, Bindings.contains, Bindings.get?_insert, List.mem_cons, List.not_mem_nil]
  constructor
  · intro bound
    by_cases same : key = context.type
    · exact ⟨⟨"crate", "Context"⟩, .inl rfl, apart, same.symm⟩
    · simp [same, Bindings.get?] at bound
  · rintro ⟨other, rfl | rfl | impossible, differs, rfl⟩
    · rfl
    · exact absurd rfl differs
    · exact impossible.elim

end Container

end Wiring
