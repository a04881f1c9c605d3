import Wiring.Container.Resolution
import Wiring.Proofs.Answers

/-! What resolving a key can come to. The cases are stated once, together with those of resolving
keys in order, as one principle of induction; depth is gone from it, so everything proved by it
holds however deep the recipes go.
-/

namespace Wiring

namespace Outcome

variable {α β : Type}

/-- The instances and calls of a step stay when something else follows it, by cases of the step's own
result.
-/
theorem andThen_eq_some {outcome : Outcome α} {next : Nat → α → Option (Outcome β)}
    {final : Outcome β} (ends : outcome.andThen next = some final)
    : (∃ fault,
        outcome.result = .error fault
        ∧ final = ⟨outcome.made, outcome.calls, outcome.events, .error fault⟩)
      ∨ ∃ value rest,
          outcome.result = .ok value
          ∧ next outcome.made value = some rest
          ∧ final
            = ⟨rest.made, outcome.calls ++ rest.calls, outcome.events ++ rest.events,
                rest.result⟩ := by
  unfold andThen at ends
  split at ends
  · rename_i fault failed
    exact .inl ⟨fault, failed, (Option.some.inj ends).symm⟩
  · rename_i value succeeded
    obtain ⟨rest, found, same⟩ := Option.map_eq_some_iff.mp ends
    exact .inr ⟨value, rest, succeeded, found, same.symm⟩

/-- A type check changes nothing but the result. -/
theorem typed_eq (key : TypeKey) (outcome : Outcome Instance)
    : outcome.typed key
      = ⟨outcome.made, outcome.calls, outcome.events, (outcome.typed key).result⟩ := by
  unfold typed
  repeat' split
  all_goals rfl

/-- A type check has nothing to refuse where what is found is of the type. -/
theorem typed_eq_self {key : TypeKey} {outcome : Outcome Instance}
    (ofType : ∀ value, outcome.result = .ok value → value.type = key)
    : outcome.typed key = outcome := by
  unfold typed
  split
  · rfl
  · rename_i value succeeded
    rw [if_pos (ofType value succeeded)]

/-- What passes a type check is of the type, by cases of the result and of the comparison. -/
theorem typed_result_eq_ok_iff {key : TypeKey} {outcome : Outcome Instance} {value : Instance}
    : (outcome.typed key).result = .ok value ↔ outcome.result = .ok value ∧ value.type = key := by
  unfold typed
  split
  · rename_i fault failed
    simp [failed]
  · rename_i held succeeded
    split
    · rename_i same
      constructor
      · intro passed
        obtain rfl : held = value := by simpa [succeeded] using passed
        exact ⟨succeeded, same⟩
      · exact And.left
    · rename_i differs
      simp only [reduceCtorEq, false_iff, not_and]
      intro found same
      obtain rfl : held = value := by simpa [succeeded] using found
      exact differs same

/-- A type check fails as the outcome did, or because what was found is of another type. -/
theorem typed_result_eq_error {key : TypeKey} {outcome : Outcome Instance}
    {fault : ResolutionFault} (failed : (outcome.typed key).result = .error fault)
    : outcome.result = .error fault
      ∨ ∃ value,
          outcome.result = .ok value ∧ value.type ≠ key ∧ fault = .mismatch key := by
  unfold typed at failed
  split at failed
  · exact .inl failed
  · rename_i value succeeded
    split at failed
    · exact .inl failed
    · rename_i differs
      exact .inr ⟨value, succeeded, differs, by simpa using failed.symm⟩

end Outcome

namespace Container

variable {container : Container}

/-- Resolving keys in order ends with none left, at the first that fails, or goes on with the rest
after one of its own type. It is the step of every induction over parameters.
-/
theorem resolveEach_cons {resolve : Nat → TypeKey → Option (Outcome Instance)} {made : Nat}
    {first : TypeKey} {rest : List TypeKey} {outcome : Outcome (List Instance)}
    (ends : resolveEach resolve made (first :: rest) = some outcome)
    : ∃ head,
        resolve made first = some head
        ∧ ((∃ fault,
            (head.typed first).result = .error fault
            ∧ outcome = ⟨head.made, head.calls, head.events, .error fault⟩)
          ∨ ∃ value others,
              head.result = .ok value
              ∧ value.type = first
              ∧ resolveEach resolve head.made rest = some others
              ∧ outcome
                = ⟨others.made, head.calls ++ others.calls, head.events ++ others.events,
                    others.result.map (value :: ·)⟩) := by
  simp only [resolveEach, Option.bind_eq_some_iff] at ends
  obtain ⟨head, found, ends⟩ := ends
  refine ⟨head, found, ?_⟩
  rw [Outcome.typed_eq] at ends
  rcases Outcome.andThen_eq_some ends with
    ⟨fault, failed, same⟩ | ⟨value, tail, succeeded, remaining, same⟩
  · exact .inl ⟨fault, failed, same⟩
  · obtain ⟨others, resolved, rfl⟩ := Option.map_eq_some_iff.mp remaining
    obtain ⟨held, typed⟩ := Outcome.typed_result_eq_ok_iff.mp succeeded
    exact .inr ⟨value, others, held, typed, resolved, same⟩

/-- What one level of resolving can do: take what is bound, miss a recipe, fail at a parameter, or
construct from all of them. It is the one place where the definition is opened; all invariants of
resolutions are drawn from it.
-/
theorem resolveWithin_succ {depth made : Nat} {key : TypeKey} {outcome : Outcome Instance}
    (ends : container.resolveWithin (depth + 1) made key = some outcome)
    : (∃ value,
        container.bindings.get? key = some value
        ∧ outcome = ⟨made, [], [.tookBound key.name], .ok value⟩)
      ∨ (container.bindings.get? key = none
        ∧ Recipe.find? container.recipes key = none
        ∧ outcome = ⟨made, [], [], .error (.missing key)⟩)
      ∨ ∃ recipe parts,
          container.bindings.get? key = none
          ∧ Recipe.find? container.recipes key = some recipe
          ∧ resolveEach (container.resolveWithin depth) made recipe.parameters = some parts
          ∧ ((∃ fault,
              parts.result = .error fault
              ∧ outcome
                = ⟨parts.made, parts.calls, .constructing key.name :: parts.events,
                    .error fault⟩)
            ∨ ∃ values,
                parts.result = .ok values
                ∧ outcome
                  = ⟨parts.made + 1, parts.calls ++ [⟨recipe.makes, values⟩],
                      .constructing key.name :: parts.events ++ recipe.notes,
                      .ok (.mk (parts.made + 1) recipe.makes none values)⟩) := by
  unfold resolveWithin at ends
  split at ends
  · rename_i value bound
    exact .inl ⟨value, bound, (Option.some.inj ends).symm⟩
  · rename_i unbound
    split at ends
    · rename_i rowless
      exact .inr (.inl ⟨unbound, rowless, (Option.some.inj ends).symm⟩)
    · rename_i recipe found
      obtain ⟨parts, resolved, ends⟩ := Option.bind_eq_some_iff.mp ends
      refine .inr (.inr ⟨recipe, parts, unbound, found, resolved, ?_⟩)
      rcases Outcome.andThen_eq_some ends with
        ⟨fault, failed, same⟩ | ⟨values, rest, succeeded, constructed, same⟩
      · exact .inl ⟨fault, failed, same⟩
      · obtain rfl := Option.some.inj constructed
        exact .inr ⟨values, succeeded, same⟩

/-- Where a recipe counts, it fails at a parameter or constructs from all of them. The other cases of a
level need a binding or no recipe.
-/
theorem exists_parts_of_recipe {depth made : Nat} {key : TypeKey} {recipe : Recipe}
    {outcome : Outcome Instance} (unbound : container.bindings.get? key = none)
    (found : Recipe.find? container.recipes key = some recipe)
    (ends : container.resolveWithin (depth + 1) made key = some outcome)
    : ∃ parts,
        resolveEach (container.resolveWithin depth) made recipe.parameters = some parts
        ∧ ((∃ fault,
            parts.result = .error fault
            ∧ outcome
              = ⟨parts.made, parts.calls, .constructing key.name :: parts.events, .error fault⟩)
          ∨ ∃ values,
              parts.result = .ok values
              ∧ outcome
                = ⟨parts.made + 1, parts.calls ++ [⟨recipe.makes, values⟩],
                    .constructing key.name :: parts.events ++ recipe.notes,
                    .ok (.mk (parts.made + 1) recipe.makes none values)⟩) := by
  rcases resolveWithin_succ ends with
    ⟨value, bound, _⟩ | ⟨_, rowless, _⟩ | ⟨counted, parts, _, same, resolved, ended⟩
  · cases unbound.symm.trans bound
  · cases found.symm.trans rowless
  · obtain rfl := Option.some.inj (found.symm.trans same)
    exact ⟨parts, resolved, ended⟩

/-- Properties of the outcomes of keys and of keys in order that every step of resolving keeps: one
field for each way in which a step can go.
-/
structure Invariant (container : Container) (one : Nat → TypeKey → Outcome Instance → Prop)
    (each : Nat → List TypeKey → Outcome (List Instance) → Prop)
    : Prop where
  taken
    : ∀ {made key value},
        container.bindings.get? key = some value
        → one made key ⟨made, [], [.tookBound key.name], .ok value⟩
  missing
    : ∀ {made key},
        container.bindings.get? key = none
        → Recipe.find? container.recipes key = none
        → one made key ⟨made, [], [], .error (.missing key)⟩
  spoiled
    : ∀ {made key recipe fault} {parts : Outcome (List Instance)},
        container.bindings.get? key = none
        → Recipe.find? container.recipes key = some recipe
        → each made recipe.parameters parts
        → parts.result = .error fault
        → one made key
            ⟨parts.made, parts.calls, .constructing key.name :: parts.events, .error fault⟩
  built
    : ∀ {made key recipe values} {parts : Outcome (List Instance)},
        container.bindings.get? key = none
        → Recipe.find? container.recipes key = some recipe
        → each made recipe.parameters parts
        → parts.result = .ok values
        → one made key
            ⟨parts.made + 1, parts.calls ++ [⟨recipe.makes, values⟩],
              .constructing key.name :: parts.events ++ recipe.notes,
              .ok (.mk (parts.made + 1) recipe.makes none values)⟩
  finished : ∀ {made}, each made [] ⟨made, [], [], .ok []⟩
  stuck
    : ∀ {made first rest fault} {head : Outcome Instance},
        one made first head
        → (head.typed first).result = .error fault
        → each made (first :: rest) ⟨head.made, head.calls, head.events, .error fault⟩
  advanced
    : ∀ {made first rest value} {head : Outcome Instance} {others : Outcome (List Instance)},
        one made first head
        → head.result = .ok value
        → value.type = first
        → each head.made rest others
        → each made (first :: rest)
            ⟨others.made, head.calls ++ others.calls, head.events ++ others.events,
              others.result.map (value :: ·)⟩

namespace Invariant

variable {one : Nat → TypeKey → Outcome Instance → Prop}
  {each : Nat → List TypeKey → Outcome (List Instance) → Prop}

/-- An invariant holds of keys in order when it holds of each key, by induction on the keys. -/
theorem resolveEach (invariant : container.Invariant one each)
    {resolve : Nat → TypeKey → Option (Outcome Instance)}
    (holds : ∀ made key outcome, resolve made key = some outcome → one made key outcome)
    {made : Nat} {keys : List TypeKey} {outcome : Outcome (List Instance)}
    (ends : Container.resolveEach resolve made keys = some outcome)
    : each made keys outcome := by
  induction keys generalizing made outcome with
  | nil =>
      obtain rfl := Option.some.inj ends
      exact invariant.finished
  | cons first rest ih =>
      obtain
        ⟨head, found, ⟨fault, failed, rfl⟩ | ⟨value, others, succeeded, typed, resolved, rfl⟩⟩ :=
        resolveEach_cons ends
      · exact invariant.stuck (holds _ _ _ found) failed
      · exact invariant.advanced (holds _ _ _ found) succeeded typed (ih resolved)

/-- An invariant holds of every outcome, by induction on the depth. -/
theorem resolveWithin (invariant : container.Invariant one each) {depth made : Nat}
    {key : TypeKey} {outcome : Outcome Instance}
    (ends : container.resolveWithin depth made key = some outcome)
    : one made key outcome := by
  induction depth generalizing made key outcome with
  | zero => simp [Container.resolveWithin] at ends
  | succ depth ih =>
      rcases resolveWithin_succ ends with
        ⟨value, bound, rfl⟩ | ⟨unbound, rowless, rfl⟩
        | ⟨recipe, parts, unbound, found, resolved, ended⟩
      · exact invariant.taken bound
      · exact invariant.missing unbound rowless
      · have parameters := invariant.resolveEach (fun _ _ _ => ih) resolved
        rcases ended with ⟨fault, failed, rfl⟩ | ⟨values, succeeded, rfl⟩
        · exact invariant.spoiled unbound found parameters failed
        · exact invariant.built unbound found parameters succeeded

end Invariant

end Container

end Wiring
