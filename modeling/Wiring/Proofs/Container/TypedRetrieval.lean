import Wiring.Proofs.Container.Faults
import Wiring.Proofs.Container.Lookups

/-! Typed retrieval never passes one type for another. Recipes may make instances of other types than
those they count for. Then such an instance is handed to nobody who asked for the type: the retrieval
fails, right after the call that made it, and names the type.
-/

namespace Wiring.Container

open Relation (TransGen)

variable {container : Container} {key : TypeKey}

/-- The call is that of the recipe that counts for the target, which is not bound. Each argument is of
the type of its parameter.
-/
structure Performs (container : Container) (target : TypeKey) (call : Call) : Prop where
  unbound : container.bindings.get? target = none
  handed
    : ∃ recipe,
        Recipe.find? container.recipes target = some recipe
        ∧ call.makes = recipe.makes
        ∧ call.arguments.map Instance.type = recipe.parameters

/-- The target is not bound, its recipe makes something of another type, and the last of the calls is
that of the recipe, for which all parameters have been resolved.
-/
structure Miscasts (container : Container) (target : TypeKey) (calls : List Call) : Prop where
  unbound : container.bindings.get? target = none
  foreign
    : ∃ recipe earlier arguments,
        Recipe.find? container.recipes target = some recipe
        ∧ recipe.makes ≠ target
        ∧ arguments.map Instance.type = recipe.parameters
        ∧ calls = earlier ++ [⟨recipe.makes, arguments⟩]

/-- Calls that were made before do not matter. -/
theorem Miscasts.append {target : TypeKey} {calls : List Call}
    (miscasts : container.Miscasts target calls) (before : List Call)
    : container.Miscasts target (before ++ calls) := by
  obtain ⟨unbound, recipe, earlier, arguments, found, foreign, types, rfl⟩ := miscasts
  exact ⟨unbound, recipe, before ++ earlier, arguments, found, foreign, types, by simp⟩

/-- What the resolution of a key comes to where types are concerned. -/
structure KeepsTypes (container : Container) (key : TypeKey) (outcome : Outcome Instance)
    : Prop where
  performs
    : ∀ call ∈ outcome.calls,
        ∃ target, container.LooksUp key target ∧ container.Performs target call
  foreign
    : ∀ value,
        outcome.result = .ok value → value.type ≠ key → container.Miscasts key outcome.calls
  blames
    : ∀ wrong,
        outcome.result = .error (.mismatch wrong)
        → container.Miscasts wrong outcome.calls ∧ TransGen container.Requests key wrong

/-- What the resolution of keys in order comes to where types are concerned. -/
structure KeepsTypesEach (container : Container) (keys : List TypeKey)
    (outcome : Outcome (List Instance))
    : Prop where
  performs
    : ∀ call ∈ outcome.calls,
        ∃ parameter target,
          container.ComesTo keys parameter
          ∧ container.LooksUp parameter target
          ∧ container.Performs target call
  types : ∀ values, outcome.result = .ok values → values.map Instance.type = keys
  blames
    : ∀ wrong,
        outcome.result = .error (.mismatch wrong)
        → container.Miscasts wrong outcome.calls
          ∧ ∃ parameter, container.ComesTo keys parameter ∧ container.LooksUp parameter wrong

/-- Types are kept, level by level. -/
theorem invariant_keepsTypes (bound : container.bindings.Typed)
    : container.Invariant
        (fun made key outcome =>
          container.resolve? made key = some outcome ∧ container.KeepsTypes key outcome)
        (fun made keys outcome =>
          resolveEach container.resolve? made keys = some outcome
          ∧ container.KeepsTypesEach keys outcome) where
  taken {made key value} found := by
    refine ⟨container.invariant_resolves.taken found, by simp, ?_, by simp⟩
    intro held same differs
    obtain rfl := Except.ok.inj same
    exact absurd (bound key value found) differs
  missing unbound rowless :=
    ⟨container.invariant_resolves.missing unbound rowless, by simp, by simp, by simp⟩
  spoiled {made key recipe fault parts} unbound found parameters failed := by
    obtain ⟨resolved, kept⟩ := parameters
    have requests {parameter : TypeKey} (comes : container.ComesTo recipe.parameters parameter)
        : container.Requests key parameter :=
      ⟨unbound, recipe, found, comes⟩
    refine ⟨container.invariant_resolves.spoiled unbound found resolved failed, ?_, by simp, ?_⟩
    · intro call member
      obtain ⟨parameter, target, comes, looks, performs⟩ := kept.performs call member
      exact ⟨target, .head (requests comes) looks, performs⟩
    · intro wrong same
      obtain rfl := Except.error.inj same
      obtain ⟨miscasts, parameter, comes, looks⟩ := kept.blames wrong failed
      exact ⟨miscasts, TransGen.head' (requests comes) looks⟩
  built {made key recipe values parts} unbound found parameters succeeded := by
    obtain ⟨resolved, kept⟩ := parameters
    have types := kept.types values succeeded
    refine ⟨container.invariant_resolves.built unbound found resolved succeeded, ?_, ?_, by simp⟩
    · intro call member
      rcases List.mem_append.mp member with earlier | last
      · obtain ⟨parameter, target, comes, looks, performs⟩ := kept.performs call earlier
        exact ⟨target, .head ⟨unbound, recipe, found, comes⟩ looks, performs⟩
      · obtain rfl := List.mem_singleton.mp last
        exact ⟨key, .refl, unbound, recipe, found, rfl, types⟩
    · intro value same differs
      obtain rfl := Except.ok.inj same
      exact ⟨unbound, recipe, parts.calls, values, found, differs, types, rfl⟩
  finished := by
    refine ⟨rfl, by simp, ?_, by simp⟩
    intro values same
    obtain rfl := Except.ok.inj same
    rfl
  stuck {made first rest fault head} one failed := by
    obtain ⟨resolved, kept⟩ := one
    refine ⟨container.invariant_resolves.stuck resolved failed, ?_, by simp, ?_⟩
    · intro call member
      obtain ⟨target, looks, performs⟩ := kept.performs call member
      exact ⟨first, target, comesTo_head, looks, performs⟩
    · intro wrong same
      obtain rfl := Except.error.inj same
      rcases Outcome.typed_result_eq_error failed with failed | ⟨value, succeeded, differs, blamed⟩
      · obtain ⟨miscasts, requests⟩ := kept.blames wrong failed
        exact ⟨miscasts, first, comesTo_head, requests.to_reflTransGen⟩
      · obtain rfl := ResolutionFault.mismatch.inj blamed
        exact ⟨kept.foreign value succeeded differs, wrong, comesTo_head, .refl⟩
  advanced {made first rest value head others} one succeeded typed each := by
    obtain ⟨resolved, kept⟩ := one
    obtain ⟨resolvedRest, keptRest⟩ := each
    have retrieved : container.Retrieves first := ⟨made, head, value, resolved, succeeded, typed⟩
    refine
      ⟨container.invariant_resolves.advanced resolved succeeded typed resolvedRest, ?_, ?_, ?_⟩
    · intro call member
      rcases List.mem_append.mp member with member | member
      · obtain ⟨target, looks, performs⟩ := kept.performs call member
        exact ⟨first, target, comesTo_head, looks, performs⟩
      · obtain ⟨parameter, target, comes, looks, performs⟩ := keptRest.performs call member
        exact ⟨parameter, target, comes.cons retrieved, looks, performs⟩
    · intro values same
      obtain ⟨further, remaining, rfl⟩ := map_eq_ok_iff.mp same
      simp [typed, keptRest.types further remaining]
    · intro wrong same
      obtain ⟨miscasts, parameter, comes, looks⟩ := keptRest.blames wrong (map_eq_error_iff.mp same)
      exact ⟨miscasts.append head.calls, parameter, comes.cons retrieved, looks⟩

/-- Typed retrieval never miscasts. What it answers is of the type that was asked for, and whatever a
recipe is handed in the course of it is of the type of the parameter. It fails over the type of
an instance only where a recipe that counts, under a key that is not bound, has made something of another
type out of all its parameters. That key is the one asked for, and then the bare resolution answers
what was made; or a recipe has asked for it, and then the bare resolution fails alike. Resolutions keep
the types of bindings and parameters, and blame a mismatch on what a recipe has made.
-/
theorem resolveTyped?_never_miscasts (typed : container.bindings.Typed) {made : Nat}
    {outcome : Outcome Instance} (ends : container.resolveTyped? made key = some outcome)
    : (∀ value, outcome.result = .ok value → value.type = key)
      ∧ (∀ call ∈ outcome.calls,
          ∃ target, container.LooksUp key target ∧ container.Performs target call)
      ∧ ∀ wrong,
          outcome.result = .error (.mismatch wrong)
          → container.Miscasts wrong outcome.calls
            ∧ ((wrong = key
                ∧ ∃ value,
                    value.type ≠ key
                    ∧ container.resolve? made key = some { outcome with result := .ok value })
              ∨ (wrong ≠ key
                ∧ TransGen container.Requests key wrong
                ∧ container.resolve? made key = some outcome)) := by
  obtain ⟨untyped, resolved, rfl⟩ := Option.map_eq_some_iff.mp ends
  obtain ⟨_, kept⟩ := (invariant_keepsTypes typed).resolveWithin resolved
  have calls : (untyped.typed key).calls = untyped.calls := by rw [Outcome.typed_eq]
  refine ⟨?_, ?_, ?_⟩
  · intro value passed
    exact (Outcome.typed_result_eq_ok_iff.mp passed).2
  · rw [calls]
    exact kept.performs
  · intro wrong failed
    rw [calls]
    rcases Outcome.typed_result_eq_error failed with below | ⟨value, succeeded, differs, blamed⟩
    · obtain ⟨miscasts, requests⟩ := kept.blames wrong below
      have within : container.EndsWithin container.depthLimit key :=
        (endsWithin_iff made).mpr ⟨untyped, resolved⟩
      have apart : wrong ≠ key := fun same => within.not_requests_itself (same ▸ requests)
      have untouched : untyped.typed key = untyped := Outcome.typed_eq_self (by simp [below])
      exact ⟨miscasts, .inr ⟨apart, requests, by rw [untouched, resolved]⟩⟩
    · obtain rfl := ResolutionFault.mismatch.inj blamed
      refine ⟨kept.foreign value succeeded differs, .inl ⟨rfl, value, differs, ?_⟩⟩
      rw [Outcome.typed_eq, resolved, ← succeeded]

/-- A view needs a log and a client. What counts as the recipe of a client makes a socket out of the
address that the host has bound.
-/
def disguised : Container := {
  recipes := [
    { key := ⟨"Log"⟩, parameters := [] },
    { key := ⟨"Client"⟩, parameters := [⟨"Address"⟩], makes := ⟨"Socket"⟩ },
    { key := ⟨"View"⟩, parameters := [⟨"Log"⟩, ⟨"Client"⟩] }
  ]
  bindings := Bindings.insert {} ⟨"Address"⟩ (.mk 1 ⟨"Address"⟩ none [])
}

/-- The view is not made, for the recipe of the client has made a socket. -/
theorem resolveTyped?_never_miscasts_disguised
    : ∃ outcome,
        disguised.resolveTyped? 1 ⟨"View"⟩ = some outcome
        ∧ outcome.result = .error (.mismatch ⟨"Client"⟩)
        ∧ outcome.calls.map (·.makes.name) = ["Log", "Socket"]
        ∧ disguised.Miscasts ⟨"Client"⟩ outcome.calls
        ∧ TransGen disguised.Requests ⟨"View"⟩ ⟨"Client"⟩ := by
  have typed : disguised.bindings.Typed := Bindings.Typed.empty.insert (.mk 1 ⟨"Address"⟩ none [])
  obtain ⟨outcome, ends⟩ : ∃ outcome, disguised.resolveTyped? 1 ⟨"View"⟩ = some outcome :=
    ⟨_, rfl⟩
  have failed : outcome.result = .error (.mismatch ⟨"Client"⟩) :=
    Option.some.inj (congrArg (Option.map Outcome.result) ends).symm
  have called : outcome.calls.map (·.makes.name) = ["Log", "Socket"] :=
    congrArg (List.map (·.makes.name))
      (Option.some.inj (congrArg (Option.map Outcome.calls) ends).symm)
  obtain ⟨_, _, blames⟩ := resolveTyped?_never_miscasts typed ends
  obtain ⟨miscasts, ⟨itself, _⟩ | ⟨_, requests, _⟩⟩ := blames ⟨"Client"⟩ failed
  · exact absurd itself (by decide)
  · exact ⟨outcome, ends, failed, called, miscasts, requests⟩

end Wiring.Container
