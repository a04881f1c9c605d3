import Mathlib.Logic.Relation
import Wiring.Proofs.Container.Depth

/-! What a resolution looks up: the key that it is asked for, and what the recipes of such keys come
to ask for in turn. A recipe asks for its parameters in order, and for none behind the first one that
cannot be retrieved. A resolution that ends never comes to ask for its own key, and it tells of each
key that it looks up.
-/

namespace Wiring

open Relation (ReflTransGen TransGen)

/-- The outcome tells that the key was looked up. -/
def Outcome.Tells (outcome : Outcome Instance) (key : TypeKey) : Prop :=
  .tookBound key.name ∈ outcome.events
  ∨ .constructing key.name ∈ outcome.events
  ∨ outcome.result = .error (.missing key)

namespace Container

variable {container : Container} {depth made : Nat} {key parameter : TypeKey}

-----------------------------------------------------------------------------------------
-- Resolving without regard to depth
-----------------------------------------------------------------------------------------

/-- What a container answers is made from what it answers for parameters, step by step. -/
theorem invariant_resolves (container : Container)
    : container.Invariant
        (fun made key outcome => container.resolve? made key = some outcome)
        (fun made keys outcome => resolveEach container.resolve? made keys = some outcome) where
  taken bound := resolve?_eq_some_iff.mpr ⟨1, by simp [resolveWithin, bound]⟩
  missing unbound rowless :=
    resolve?_eq_some_iff.mpr ⟨1, by simp [resolveWithin, unbound, rowless]⟩
  spoiled {made key recipe fault parts} unbound found parameters failed := by
    refine resolve?_eq_some_iff.mpr ⟨container.depthLimit + 1, ?_⟩
    have parameters
        : resolveEach (container.resolveWithin container.depthLimit) made recipe.parameters
          = some parts :=
      parameters
    simp [resolveWithin, unbound, found, parameters, Outcome.andThen, failed]
  built {made key recipe values parts} unbound found parameters succeeded := by
    refine resolve?_eq_some_iff.mpr ⟨container.depthLimit + 1, ?_⟩
    have parameters
        : resolveEach (container.resolveWithin container.depthLimit) made recipe.parameters
          = some parts :=
      parameters
    simp [resolveWithin, unbound, found, parameters, Outcome.andThen, succeeded, construct]
  finished := rfl
  stuck {made first rest fault head} one failed := by
    rw [resolveEach, one, Option.bind_some, Outcome.typed_eq, Outcome.andThen]
    simp only [failed]
  advanced {made first rest value head others} one succeeded typed each := by
    have ofType : ∀ held, head.result = .ok held → held.type = first := by
      intro held same
      obtain rfl := Except.ok.inj (succeeded.symm.trans same)
      exact typed
    rw [resolveEach, one, Option.bind_some, Outcome.typed_eq_self ofType, Outcome.andThen]
    simp [succeeded, each]

-----------------------------------------------------------------------------------------
-- What is looked up
-----------------------------------------------------------------------------------------

/-- The key resolves to an instance of its own type. -/
def Retrieves (container : Container) (key : TypeKey) : Prop :=
  ∃ made outcome value,
    container.resolve? made key = some outcome
    ∧ outcome.result = .ok value
    ∧ value.type = key

/-- Of keys that are asked for in order, all those before the parameter are retrieved. -/
def ComesTo (container : Container) (keys : List TypeKey) (parameter : TypeKey) : Prop :=
  ∃ earlier later,
    keys = earlier ++ parameter :: later ∧ ∀ other ∈ earlier, container.Retrieves other

/-- Resolving the key asks for the parameter: nothing is bound under the key, and its recipe comes to
the parameter.
-/
structure Requests (container : Container) (key parameter : TypeKey) : Prop where
  unbound : container.bindings.get? key = none
  comes
    : ∃ recipe,
        Recipe.find? container.recipes key = some recipe
        ∧ container.ComesTo recipe.parameters parameter

/-- Resolving the first key looks the other one up. -/
def LooksUp (container : Container) : TypeKey → TypeKey → Prop :=
  ReflTransGen container.Requests

/-- What is retrieved once is retrieved whenever its resolution ends. -/
theorem Retrieves.succeeds (retrieved : container.Retrieves key) {outcome : Outcome Instance}
    (ends : container.resolveWithin depth made key = some outcome)
    : ∃ value, outcome.result = .ok value ∧ value.type = key := by
  obtain ⟨before, found, value, resolved, succeeded, typed⟩ := retrieved
  have limited : container.resolve? made key = some outcome :=
    resolve?_eq_some_iff.mpr ⟨depth, ends⟩
  have alike := container.resolveWithin_alike container.depthLimit made before key
  rw [show container.resolveWithin container.depthLimit made key = some outcome from limited,
    show container.resolveWithin container.depthLimit before key = some found from resolved,
    Option.map_some, Option.map_some] at alike
  apply Outcome.verdict_eq_ok_iff.mp
  rw [Option.some.inj alike]
  exact Outcome.verdict_eq_ok_iff.mpr ⟨value, succeeded, typed⟩

/-- Resolving comes to the first of the keys, with nothing before it. -/
theorem comesTo_head {first : TypeKey} {rest : List TypeKey}
    : container.ComesTo (first :: rest) first :=
  ⟨[], rest, rfl, by simp⟩

/-- Behind a key that is retrieved, resolving comes to whatever it would come to among the rest. -/
theorem ComesTo.cons {first : TypeKey} {rest : List TypeKey}
    (retrieved : container.Retrieves first) (comes : container.ComesTo rest parameter)
    : container.ComesTo (first :: rest) parameter := by
  obtain ⟨earlier, later, rfl, others⟩ := comes
  exact ⟨first :: earlier, later, rfl, List.forall_mem_cons.mpr ⟨retrieved, others⟩⟩

/-- When keys in order come to one of them, it is resolved: what it tells is told, and its fault is
theirs. The induction is on the keys before it.
-/
theorem exists_resolved_of_comesTo {keys : List TypeKey} {parts : Outcome (List Instance)}
    (ends : resolveEach (container.resolveWithin depth) made keys = some parts)
    (comes : container.ComesTo keys parameter)
    : ∃ later outcome,
        container.resolveWithin depth later parameter = some outcome
        ∧ outcome.events ⊆ parts.events
        ∧ ∀ fault, outcome.result = .error fault → parts.result = .error fault := by
  obtain ⟨earlier, later, rfl, retrieved⟩ := comes
  induction earlier generalizing made parts with
  | nil =>
      obtain ⟨head, found, next⟩ := resolveEach_cons ends
      refine ⟨made, head, found, ?_⟩
      rcases next with ⟨fault, failed, rfl⟩ | ⟨value, others, succeeded, _, _, rfl⟩
      · refine ⟨List.Subset.refl _, fun other same => ?_⟩
        rw [Outcome.typed_eq_self (by simp [same]), same] at failed
        exact congrArg Except.error (Except.error.inj failed).symm
      · exact ⟨List.subset_append_left _ _, by simp [succeeded]⟩
  | cons first rest ih =>
      obtain ⟨here, others⟩ := List.forall_mem_cons.mp retrieved
      obtain ⟨head, found, next⟩ := resolveEach_cons ends
      obtain ⟨value, succeeded, typed⟩ := here.succeeds found
      rcases next with ⟨fault, failed, rfl⟩ | ⟨_, following, _, _, resolved, rfl⟩
      · have passed := Outcome.typed_result_eq_ok_iff.mpr ⟨succeeded, typed⟩
        simp [passed] at failed
      · obtain ⟨later, outcome, ends, told, fails⟩ := ih others resolved
        refine ⟨later, outcome, ends, List.subset_append_of_subset_right _ told, ?_⟩
        intro fault failed
        simp [fails fault failed, Except.map]

-----------------------------------------------------------------------------------------
-- Resolutions that end
-----------------------------------------------------------------------------------------

/-- What is asked for ends a level earlier. -/
theorem EndsWithin.of_requests (ends : container.EndsWithin (depth + 1) key)
    (requests : container.Requests key parameter)
    : container.EndsWithin depth parameter := by
  obtain ⟨unbound, recipe, found, comes⟩ := requests
  obtain ⟨outcome, ends⟩ := (endsWithin_iff 0).mp ends
  obtain ⟨parts, resolved, _⟩ := exists_parts_of_recipe unbound found ends
  obtain ⟨later, outcome, resolved, _⟩ := exists_resolved_of_comesTo resolved comes
  exact (endsWithin_iff later).mpr ⟨outcome, resolved⟩

/-- A resolution that ends never comes to ask for its own key, by induction on the depth. -/
theorem EndsWithin.not_requests_itself (ends : container.EndsWithin depth key)
    : ¬ TransGen container.Requests key key := by
  induction depth generalizing key with
  | zero => simp [EndsWithin, resolveWithin] at ends
  | succ depth ih =>
      intro cycle
      obtain ⟨next, requests, back⟩ := TransGen.head'_iff.mp cycle
      exact ih (ends.of_requests requests) (TransGen.tail' back requests)

/-- A resolution tells of each key that it looks up, by induction along the way to it. -/
theorem tells_of_looksUp {other : TypeKey} (looks : container.LooksUp key other)
    {outcome : Outcome Instance}
    (ends : container.resolveWithin depth made key = some outcome)
    : outcome.Tells other := by
  induction looks using ReflTransGen.head_induction_on generalizing depth made outcome with
  | refl =>
      cases depth with
      | zero => simp [resolveWithin] at ends
      | succ depth =>
          rcases resolveWithin_succ ends with
            ⟨_, _, rfl⟩ | ⟨_, _, rfl⟩ | ⟨_, _, _, _, _, ⟨_, _, rfl⟩ | ⟨_, _, rfl⟩⟩
          · exact .inl (by simp)
          · exact .inr (.inr rfl)
          · exact .inr (.inl (by simp))
          · exact .inr (.inl (by simp))
  | head requests _ ih =>
      obtain ⟨unbound, recipe, found, comes⟩ := requests
      cases depth with
      | zero => simp [resolveWithin] at ends
      | succ depth =>
          obtain ⟨parts, resolved, ended⟩ := exists_parts_of_recipe unbound found ends
          obtain ⟨later, inner, below, told, fails⟩ := exists_resolved_of_comesTo resolved comes
          have events : parts.events ⊆ outcome.events := by
            rcases ended with ⟨fault, _, rfl⟩ | ⟨values, _, rfl⟩
            · exact List.subset_cons_self _ _
            · exact List.subset_append_of_subset_left _ (List.subset_cons_self _ _)
          rcases ih below with taken | built | missing
          · exact .inl (events (told taken))
          · exact .inr (.inl (events (told built)))
          · have spoiled := fails _ missing
            rcases ended with ⟨fault, failed, rfl⟩ | ⟨values, succeeded, _⟩
            · exact .inr (.inr (congrArg Except.error (Except.error.inj (failed.symm.trans spoiled))))
            · simp [spoiled] at succeeded

end Container

end Wiring
