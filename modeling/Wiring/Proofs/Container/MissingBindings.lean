import Mathlib.Order.WellFoundedSet
import Wiring.Proofs.Container.Depth
import Wiring.Proofs.Container.Faults

/-! What resolving reports as missing. Over a table without cycles it is the first key that lacks
both a binding and a recipe, on the walk through all that the asked key leads to; and what has been
made by then is what the walk has left behind completed.
-/

namespace Wiring

open Relation (ReflTransGen TransGen)

-----------------------------------------------------------------------------------------
-- Tables without cycles
-----------------------------------------------------------------------------------------

namespace Recipe

variable {recipes : List Recipe}

/-- The recipe that counts for the key has the parameter. -/
def Requires (recipes : List Recipe) (key parameter : TypeKey) : Prop :=
  ∃ recipe, find? recipes key = some recipe ∧ parameter ∈ recipe.parameters

/-- No key comes to require itself. -/
def Acyclic (recipes : List Recipe) : Prop :=
  ∀ key, ¬ TransGen (Requires recipes) key key

/-- What holds of a key when it holds of all that the key requires, holds of every key. Only
finitely many keys require anything, so the way down from a key comes to an end.
-/
theorem Acyclic.induction (acyclic : Acyclic recipes) {holds : TypeKey → Prop}
    (step : ∀ key, (∀ parameter, Requires recipes key parameter → holds parameter) → holds key)
    (key : TypeKey)
    : holds key := by
  have finite : {key | ∃ parameter, Requires recipes key parameter}.Finite := by
    refine (recipes.map Recipe.key).finite_toSet.subset ?_
    rintro key ⟨_, recipe, found, _⟩
    exact Container.mem_keys_of_find? found
  have order
      : IsStrictOrder TypeKey fun parameter key => TransGen (Requires recipes) key parameter :=
    { irrefl := acyclic, trans := fun _ _ _ below above => above.trans below }
  have founded
      : Set.WellFoundedOn {key | ∃ parameter, Requires recipes key parameter}
          fun parameter key => TransGen (Requires recipes) key parameter :=
    finite.wellFoundedOn
  have below {key parameter : TypeKey} (requires : Requires recipes key parameter)
      : holds key := by
    refine founded.induction (P := holds) ⟨parameter, requires⟩ ?_
    intro key _ ih
    refine step key fun parameter required => ?_
    by_cases further : ∃ next, Requires recipes parameter next
    · exact ih parameter further (.single required)
    · exact step parameter fun next requires => absurd ⟨next, requires⟩ further
  by_cases requires : ∃ parameter, Requires recipes key parameter
  · obtain ⟨parameter, requires⟩ := requires
    exact below requires
  · exact step key fun parameter required => absurd ⟨parameter, required⟩ requires

/-- A table has no cycle if all parameters rank below the keys that have them. -/
theorem acyclic_of_rank (rank : TypeKey → Nat)
    (falls : ∀ recipe ∈ recipes, ∀ parameter ∈ recipe.parameters, rank parameter < rank recipe.key)
    : Acyclic recipes := by
  have below {key parameter : TypeKey} (leads : TransGen (Requires recipes) key parameter)
      : rank parameter < rank key := by
    induction leads using TransGen.trans_induction_on with
    | @single key parameter requires =>
        obtain ⟨recipe, found, among⟩ := requires
        obtain ⟨member, rfl⟩ := mem_of_find? found
        exact falls recipe member parameter among
    | trans _ _ above below => exact below.trans above
  exact fun key cycle => Nat.lt_irrefl _ (below cycle)

end Recipe

-----------------------------------------------------------------------------------------
-- The walk through what a key leads to
-----------------------------------------------------------------------------------------

/-- What a key leads to, as a tree: at a leaf it goes no further, because the key is bound or has no
recipe.
-/
inductive Outline
  | leaf (key : TypeKey)
  | branch (key : TypeKey) (recipe : Recipe) (children : List Outline)

/-- A moment of a walk: a key is come upon, or all below it has been walked through. -/
inductive Moment
  | met (key : TypeKey)
  | completed (recipe : Recipe)

/-- What a call makes, and the types of what it is handed. -/
def Call.signature (call : Call) : TypeKey × List TypeKey :=
  (call.makes, call.arguments.map Instance.type)

/-- Of a key that is completed: what its recipe makes, and from what types. -/
def Moment.signature? : Moment → Option (TypeKey × List TypeKey)
  | met _ => none
  | completed recipe => some (recipe.makes, recipe.parameters)

namespace Outline

mutual

/-- Depth first, from left to right. -/
def walk : Outline → List Moment
  | leaf key => [.met key]
  | branch key recipe children => .met key :: walkEach children ++ [.completed recipe]

/-- The walks through several outlines, one after the other. -/
def walkEach : List Outline → List Moment
  | [] => []
  | first :: rest => walk first ++ walkEach rest

end

mutual

/-- The outline is that of the key. -/
def DrawnFor (container : Container) (key : TypeKey) : Outline → Prop
  | leaf here =>
      here = key
      ∧ (container.isBound key = true ∨ Recipe.find? container.recipes key = none)
  | branch here recipe children =>
      here = key
      ∧ container.bindings.get? key = none
      ∧ Recipe.find? container.recipes key = some recipe
      ∧ DrawnForEach container recipe.parameters children

/-- The outlines are drawn for the keys, in order and one for each. -/
def DrawnForEach (container : Container) : List TypeKey → List Outline → Prop
  | [], [] => True
  | key :: keys, outline :: outlines =>
      DrawnFor container key outline ∧ DrawnForEach container keys outlines
  | _, _ => False

end

end Outline

namespace Container

open Outline

variable {container : Container} {key : TypeKey}

/-- The key is not bound, and its recipe has the parameter. -/
structure LeadsTo (container : Container) (key parameter : TypeKey) : Prop where
  unbound : container.bindings.get? key = none
  required : Recipe.Requires container.recipes key parameter

/-- The other key is reached along parameters, without passing through a key that is bound. -/
def Reaches (container : Container) : TypeKey → TypeKey → Prop :=
  ReflTransGen container.LeadsTo

/-- A key under which an instance is found is bound. -/
theorem isBound_of_get? {value : Instance} (bound : container.bindings.get? key = some value)
    : container.isBound key = true := by
  simp [isBound, Bindings.contains, bound]

/-- The outline of a key that is bound, or has no recipe, is a leaf. -/
theorem eq_leaf_of_drawnFor {outline : Outline} (drawn : DrawnFor container key outline)
    (ends : container.isBound key = true ∨ Recipe.find? container.recipes key = none)
    : outline = .leaf key := by
  cases outline with
  | leaf here => rw [drawn.1]
  | branch here recipe children =>
      obtain ⟨_, unbound, found, _⟩ := drawn
      rcases ends with bound | rowless
      · simp [isBound, Bindings.contains, unbound] at bound
      · simp [rowless] at found

/-- The outline of any other key branches into those of its parameters. -/
theorem eq_branch_of_drawnFor {outline : Outline} {recipe : Recipe}
    (drawn : DrawnFor container key outline) (unbound : container.bindings.get? key = none)
    (found : Recipe.find? container.recipes key = some recipe)
    : ∃ children,
        outline = .branch key recipe children
        ∧ DrawnForEach container recipe.parameters children := by
  cases outline with
  | leaf here =>
      obtain ⟨_, bound | rowless⟩ := drawn
      · simp [isBound, Bindings.contains, unbound] at bound
      · simp [rowless] at found
  | branch here counted children =>
      obtain ⟨rfl, _, same, below⟩ := drawn
      obtain rfl := Option.some.inj (found.symm.trans same)
      exact ⟨children, rfl, below⟩

/-- Keys in order have outlines if each of them has. -/
theorem exists_drawnForEach {keys : List TypeKey}
    (each : ∀ key ∈ keys, ∃ outline, DrawnFor container key outline)
    : ∃ outlines, DrawnForEach container keys outlines := by
  induction keys with
  | nil => exact ⟨[], trivial⟩
  | cons first rest ih =>
      obtain ⟨outline, drawn⟩ := each first (by simp)
      obtain ⟨outlines, below⟩ := ih fun key member => each key (List.mem_cons_of_mem first member)
      exact ⟨outline :: outlines, drawn, below⟩

/-- Without cycles every key has an outline. -/
theorem exists_drawnFor (acyclic : Recipe.Acyclic container.recipes) (key : TypeKey)
    : ∃ outline, DrawnFor container key outline := by
  induction key using acyclic.induction with
  | step key below =>
      cases found : Recipe.find? container.recipes key with
      | none => exact ⟨.leaf key, rfl, .inr found⟩
      | some recipe =>
          cases bound : container.bindings.get? key with
          | some value => exact ⟨.leaf key, rfl, .inl (isBound_of_get? bound)⟩
          | none =>
              obtain ⟨children, drawn⟩ := exists_drawnForEach fun parameter member =>
                below parameter ⟨recipe, found, member⟩
              exact ⟨.branch key recipe children, rfl, bound, found, drawn⟩

/-- Without cycles every resolution ends. -/
theorem exists_resolve? (acyclic : Recipe.Acyclic container.recipes) (made : Nat) (key : TypeKey)
    : ∃ outcome, container.resolve? made key = some outcome := by
  have ends : ∃ depth, container.EndsWithin depth key := by
    induction key using acyclic.induction with
    | step key below =>
        refine exists_endsWithin fun recipe found parameter member => ?_
        exact below parameter ⟨recipe, found, member⟩
  obtain ⟨depth, ends⟩ := ends
  exact (endsWithin_iff made).mp ends.depthLimit

mutual

/-- A walk comes upon those keys that are reached. -/
theorem reaches_of_met {outline : Outline} {key other : TypeKey}
    (drawn : DrawnFor container key outline) (met : .met other ∈ outline.walk)
    : container.Reaches key other := by
  match outline with
  | .leaf here =>
      obtain ⟨rfl, _⟩ := drawn
      obtain rfl : other = here := by simpa [walk] using met
      exact .refl
  | .branch here recipe children =>
      obtain ⟨rfl, unbound, found, below⟩ := drawn
      have cases : other = here ∨ .met other ∈ walkEach children := by simpa [walk] using met
      rcases cases with rfl | inside
      · exact .refl
      · obtain ⟨parameter, among, reaches⟩ := reaches_of_met_each below inside
        exact .head ⟨unbound, recipe, found, among⟩ reaches

/-- What is met on a walk through outlines is reached from one of their keys, by the two recursions of
the walk.
-/
theorem reaches_of_met_each {outlines : List Outline} {keys : List TypeKey} {other : TypeKey}
    (drawn : DrawnForEach container keys outlines) (met : .met other ∈ walkEach outlines)
    : ∃ key ∈ keys, container.Reaches key other := by
  match outlines with
  | [] => simp [walkEach] at met
  | outline :: outlines =>
      cases keys with
      | nil => simp [DrawnForEach] at drawn
      | cons key keys =>
          rw [walkEach, List.mem_append] at met
          rcases met with met | met
          · exact ⟨key, by simp, reaches_of_met drawn.1 met⟩
          · obtain ⟨later, among, reaches⟩ := reaches_of_met_each drawn.2 met
            exact ⟨later, List.mem_cons_of_mem key among, reaches⟩

end

/-- An outline meets its own key. -/
theorem met_self {outline : Outline} (drawn : DrawnFor container key outline)
    : .met key ∈ outline.walk := by
  cases outline <;> simp [walk, drawn.1]

/-- The walks of keys in order are parts of the walk through all of them. -/
theorem exists_drawnFor_of_mem {keys : List TypeKey} {outlines : List Outline}
    (drawn : DrawnForEach container keys outlines) (among : key ∈ keys)
    : ∃ outline, DrawnFor container key outline ∧ outline.walk ⊆ walkEach outlines := by
  induction outlines generalizing keys with
  | nil => cases keys <;> simp [DrawnForEach] at drawn among
  | cons outline outlines ih =>
      cases keys with
      | nil => simp at among
      | cons first rest =>
          rcases List.mem_cons.mp among with rfl | among
          · exact ⟨outline, drawn.1, List.subset_append_left _ _⟩
          · obtain ⟨later, drawn, inside⟩ := ih drawn.2 among
            exact ⟨later, drawn, List.Subset.trans inside (List.subset_append_right _ _)⟩

/-- A walk comes upon all keys that are reached, by induction along the way to them. -/
theorem met_of_reaches {other : TypeKey} (reaches : container.Reaches key other)
    {outline : Outline} (drawn : DrawnFor container key outline)
    : .met other ∈ outline.walk := by
  induction reaches using ReflTransGen.head_induction_on generalizing outline with
  | refl => exact met_self drawn
  | head leads _ ih =>
      obtain ⟨unbound, recipe, found, among⟩ := leads
      obtain ⟨children, rfl, below⟩ := eq_branch_of_drawnFor drawn unbound found
      obtain ⟨child, drawn, inside⟩ := exists_drawnFor_of_mem below among
      simp [walk, inside (ih drawn)]

-----------------------------------------------------------------------------------------
-- Following the walk
-----------------------------------------------------------------------------------------

/-- The walk comes upon nothing that is lacking, and the calls are those of the keys that it has
completed, in order.
-/
structure Passes (container : Container) (calls : List Call) (walk : List Moment) : Prop where
  clear : ∀ key, .met key ∈ walk → ¬ container.Lacks key
  called : calls.map Call.signature = walk.filterMap Moment.signature?

/-- A walk through nothing passes nothing. -/
theorem Passes.nil : container.Passes [] [] :=
  ⟨by simp, rfl⟩

/-- Walks that pass compose: what is met on both is met on one of them, and the signatures of calls
concatenate.
-/
theorem Passes.append {calls others : List Call} {walk further : List Moment}
    (first : container.Passes calls walk) (rest : container.Passes others further)
    : container.Passes (calls ++ others) (walk ++ further) := by
  constructor
  · intro key met
    rcases List.mem_append.mp met with met | met
    · exact first.clear key met
    · exact rest.clear key met
  · rw [List.map_append, List.filterMap_append, first.called, rest.called]

/-- Meeting a key that is not lacking makes no call. -/
theorem Passes.met (there : ¬ container.Lacks key) : container.Passes [] [.met key] :=
  ⟨by simpa using there, rfl⟩

/-- Completing a recipe is the call of it, with arguments of the types that it asks for. -/
theorem Passes.completed {recipe : Recipe} {values : List Instance}
    (types : values.map Instance.type = recipe.parameters)
    : container.Passes [⟨recipe.makes, values⟩] [.completed recipe] := by
  refine ⟨by simp, ?_⟩
  simp [Call.signature, Moment.signature?, types]

/-- A resolution that succeeds has passed the whole walk. One that misses a key has passed it up to
there.
-/
structure Follows {α : Type} (container : Container) (outcome : Outcome α) (walk : List Moment)
    : Prop where
  succeeds
    : ∀ value, outcome.result = .ok value → container.Passes outcome.calls walk
  misses
    : ∀ absent,
        outcome.result = .error (.missing absent)
        → ∃ before after,
            walk = before ++ .met absent :: after
            ∧ container.Lacks absent
            ∧ container.Passes outcome.calls before

/-- Resolutions follow the walks through the outlines of their keys, level by level. -/
theorem invariant_follows (container : Container)
    : container.Invariant
        (fun _ key outcome =>
          ∀ outline, DrawnFor container key outline → container.Follows outcome outline.walk)
        (fun _ keys outcome =>
          (∀ values, outcome.result = .ok values → values.map Instance.type = keys)
          ∧ ∀ outlines,
              DrawnForEach container keys outlines
              → container.Follows outcome (walkEach outlines)) where
  taken {made key value} bound := by
    intro outline drawn
    obtain rfl := eq_leaf_of_drawnFor drawn (.inl (isBound_of_get? bound))
    have there : ¬ container.Lacks key := fun lacks => by simp [lacks.unbound] at bound
    exact ⟨fun _ _ => .met there, by simp⟩
  missing {made key} unbound rowless := by
    intro outline drawn
    obtain rfl := eq_leaf_of_drawnFor drawn (.inr rowless)
    refine ⟨by simp, ?_⟩
    intro absent failed
    obtain rfl := ResolutionFault.missing.inj (Except.error.inj failed)
    exact ⟨[], [], rfl, ⟨unbound, rowless⟩, .nil⟩
  spoiled {made key recipe fault parts} unbound found parameters failed := by
    intro outline drawn
    obtain ⟨children, rfl, below⟩ := eq_branch_of_drawnFor drawn unbound found
    refine ⟨by simp, ?_⟩
    intro absent same
    obtain rfl := Except.error.inj same
    obtain ⟨before, after, split, lacks, passed⟩ :=
      (parameters.2 children below).misses absent failed
    have there : ¬ container.Lacks key := fun lacks => by simp [lacks.rowless] at found
    exact ⟨.met key :: before, after ++ [.completed recipe], by simp [walk, split], lacks,
      (Passes.met there).append passed⟩
  built {made key recipe values parts} unbound found parameters succeeded := by
    intro outline drawn
    obtain ⟨children, rfl, below⟩ := eq_branch_of_drawnFor drawn unbound found
    refine ⟨fun value _ => ?_, by simp⟩
    have there : ¬ container.Lacks key := fun lacks => by simp [lacks.rowless] at found
    have passed := (parameters.2 children below).succeeds values succeeded
    exact ((Passes.met there).append passed).append (.completed (parameters.1 values succeeded))
  finished := by
    refine ⟨by simp, ?_⟩
    intro outlines drawn
    cases outlines with
    | nil => exact ⟨fun _ _ => .nil, by simp⟩
    | cons outline outlines => simp [DrawnForEach] at drawn
  stuck {made first rest fault head} one failed := by
    refine ⟨by simp, ?_⟩
    intro outlines drawn
    cases outlines with
    | nil => simp [DrawnForEach] at drawn
    | cons outline outlines =>
        refine ⟨by simp, ?_⟩
        intro absent same
        obtain rfl := Except.error.inj same
        rcases Outcome.typed_result_eq_error failed with failed | ⟨value, _, _, mismatch⟩
        · obtain ⟨before, after, split, lacks, passed⟩ := (one outline drawn.1).misses absent failed
          exact ⟨before, after ++ walkEach outlines, by simp [walkEach, split], lacks, passed⟩
        · cases mismatch
  advanced {made first rest value head others} one succeeded typed each := by
    constructor
    · intro values same
      obtain ⟨further, remaining, rfl⟩ := map_eq_ok_iff.mp same
      simp [typed, each.1 further remaining]
    · intro outlines drawn
      cases outlines with
      | nil => simp [DrawnForEach] at drawn
      | cons outline outlines =>
          have here := (one outline drawn.1).succeeds value succeeded
          have below := each.2 outlines drawn.2
          constructor
          · intro values same
            obtain ⟨further, remaining, -⟩ := map_eq_ok_iff.mp same
            exact here.append (below.succeeds further remaining)
          · intro absent same
            obtain ⟨before, after, split, lacks, passed⟩ :=
              below.misses absent (map_eq_error_iff.mp same)
            exact ⟨outline.walk ++ before, after, by simp [walkEach, split], lacks,
              here.append passed⟩

/-- Nothing that is reached from the key is lacking. -/
def Complete (container : Container) (key : TypeKey) : Prop :=
  ∀ other, container.Reaches key other → ¬ container.Lacks other

/-- With all parameters of its recipe a key is complete. -/
theorem Complete.of_parameters {recipe : Recipe}
    (found : Recipe.find? container.recipes key = some recipe)
    (below : ∀ parameter ∈ recipe.parameters, container.Complete parameter)
    : container.Complete key := by
  intro other reaches lacks
  rcases reaches.cases_head with rfl | ⟨parameter, leads, reaches⟩
  · simp [lacks.rowless] at found
  · obtain ⟨counted, same, among⟩ := leads.required
    obtain rfl := Option.some.inj (found.symm.trans same)
    exact below parameter among other reaches lacks

/-- Only what is complete is resolved, and only that is made, level by level. -/
theorem invariant_complete (makes : container.MakesOwnTypes)
    : container.Invariant
        (fun _ key outcome =>
          (∀ value, outcome.result = .ok value → container.Complete key)
          ∧ ∀ call ∈ outcome.calls, container.Complete call.makes)
        (fun _ keys outcome =>
          (∀ values, outcome.result = .ok values → ∀ key ∈ keys, container.Complete key)
          ∧ ∀ call ∈ outcome.calls, container.Complete call.makes) where
  taken {made key value} bound := by
    refine ⟨?_, by simp⟩
    intro _ _ other reaches lacks
    rcases reaches.cases_head with rfl | ⟨parameter, leads, _⟩
    · simp [lacks.unbound] at bound
    · simp [leads.unbound] at bound
  missing _ _ := by simp
  spoiled _ _ parameters _ := ⟨by simp, parameters.2⟩
  built {made key recipe values parts} _ found parameters succeeded := by
    have complete : container.Complete key := .of_parameters found (parameters.1 values succeeded)
    refine ⟨fun _ _ => complete, ?_⟩
    intro call member
    rcases List.mem_append.mp member with earlier | last
    · exact parameters.2 call earlier
    · obtain rfl := List.mem_singleton.mp last
      rwa [makes key recipe found]
  finished := by simp
  stuck one _ := ⟨by simp, one.2⟩
  advanced {made first rest value head others} one succeeded _ each := by
    constructor
    · intro values same key member
      obtain ⟨further, remaining, rfl⟩ := map_eq_ok_iff.mp same
      rcases List.mem_cons.mp member with rfl | member
      · exact one.1 value succeeded
      · exact each.1 further remaining key member
    · intro call member
      rcases List.mem_append.mp member with member | member
      · exact one.2 call member
      · exact each.2 call member

/-- Missing bindings are reported exactly. Over a table without cycles, whose recipes make what they
are looked up for, a key fails to resolve exactly when something that is reached from it lacks both a
binding and a recipe. Reported is then the first such key on the walk through all that is reached, and
the calls that were made are those of the keys completed before it: nothing from which a lacking key is
reached has been made. So the asked key itself is reported exactly when it is lacking. The resolution
follows the walk through the key's outline, and stops where the walk first meets a key that is lacking.
-/
theorem resolveTyped?_reports_missing (acyclic : Recipe.Acyclic container.recipes)
    (makes : container.MakesOwnTypes) (typed : container.bindings.Typed) (made : Nat)
    (key : TypeKey)
    : ∃ outcome outline,
        container.resolveTyped? made key = some outcome
        ∧ DrawnFor container key outline
        ∧ (∀ other, .met other ∈ outline.walk ↔ container.Reaches key other)
        ∧ ((∃ fault, outcome.result = .error fault)
          ↔ ∃ absent, container.Reaches key absent ∧ container.Lacks absent)
        ∧ (∀ fault,
            outcome.result = .error fault
            → ∃ absent before after,
                fault = .missing absent
                ∧ outline.walk = before ++ .met absent :: after
                ∧ container.Lacks absent
                ∧ (∀ other, .met other ∈ before → ¬ container.Lacks other)
                ∧ outcome.calls.map Call.signature = before.filterMap Moment.signature?)
        ∧ (∀ call ∈ outcome.calls,
            ∀ other, container.Reaches call.makes other → ¬ container.Lacks other)
        ∧ (outcome.result = .error (.missing key) ↔ container.Lacks key) := by
  obtain ⟨outcome, ends⟩ := exists_resolve? acyclic made key
  obtain ⟨outline, drawn⟩ := exists_drawnFor acyclic key
  obtain ⟨ofType, onlyMissing⟩ := (invariant_typed typed makes).resolveWithin ends
  obtain ⟨complete, spared⟩ := (invariant_complete makes).resolveWithin ends
  have follows := (invariant_follows container).resolveWithin ends outline drawn
  have met (other : TypeKey) : .met other ∈ outline.walk ↔ container.Reaches key other :=
    ⟨reaches_of_met drawn, fun reaches => met_of_reaches reaches drawn⟩
  refine ⟨outcome, outline, ?_, drawn, met, ⟨?_, ?_⟩, ?_, spared, ?_, ?_⟩
  · rw [resolveTyped?, ends, Option.map_some, Outcome.typed_eq_self ofType]
  · rintro ⟨fault, failed⟩
    obtain ⟨absent, rfl⟩ := onlyMissing fault failed
    obtain ⟨before, after, split, lacks, _⟩ := follows.misses absent failed
    exact ⟨absent, (met absent).mp (by simp [split]), lacks⟩
  · rintro ⟨absent, reaches, lacks⟩
    cases result : outcome.result with
    | error fault => exact ⟨fault, rfl⟩
    | ok value => exact absurd lacks (complete value result absent reaches)
  · intro fault failed
    obtain ⟨absent, rfl⟩ := onlyMissing fault failed
    obtain ⟨before, after, split, lacks, passed⟩ := follows.misses absent failed
    exact ⟨absent, before, after, rfl, split, lacks, passed.clear, passed.called⟩
  · intro failed
    obtain ⟨_, _, _, lacks, _⟩ := follows.misses key failed
    exact lacks
  · intro lacks
    rcases resolveWithin_succ ends with
      ⟨value, bound, _⟩ | ⟨_, _, rfl⟩ | ⟨recipe, _, _, found, _⟩
    · simp [lacks.unbound] at bound
    · rfl
    · simp [lacks.rowless] at found

/-- A view whose left side needs a client, which needs a socket, and whose right side needs a
session. The host has bound a client, and neither a socket nor a session nor the context.
-/
def shielded : Container := {
  recipes := [
    { key := ⟨"Client"⟩, parameters := [⟨"Socket"⟩] },
    { key := ⟨"Left"⟩, parameters := [⟨"Client"⟩] },
    { key := ⟨"Right"⟩, parameters := [⟨"Session"⟩] },
    { key := ⟨"View"⟩, parameters := [⟨"Left"⟩, ⟨"Right"⟩, ⟨"Context"⟩] }
  ]
  bindings := Bindings.insert {} ⟨"Client"⟩ (.mk 1 ⟨"Client"⟩ none [])
}

/-- The left side is made. Then the session is missing, so that nothing comes of the right side and
the view.
-/
theorem resolveTyped?_reports_missing_session
    : ∃ outcome outline,
        shielded.resolveTyped? 1 ⟨"View"⟩ = some outcome
        ∧ DrawnFor shielded ⟨"View"⟩ outline
        ∧ outcome.result = .error (.missing ⟨"Session"⟩)
        ∧ outcome.calls.map Call.signature = [(⟨"Left"⟩, [⟨"Client"⟩])]
        ∧ ¬ shielded.Lacks ⟨"View"⟩ := by
  have acyclic : Recipe.Acyclic shielded.recipes := by
    refine Recipe.acyclic_of_rank (fun key => List.idxOf key ?_) ?_
    · exact [⟨"Socket"⟩, ⟨"Client"⟩, ⟨"Session"⟩, ⟨"Context"⟩, ⟨"Left"⟩, ⟨"Right"⟩, ⟨"View"⟩]
    · decide
  have makes : shielded.MakesOwnTypes := by
    intro key recipe found
    obtain ⟨member, rfl⟩ := Recipe.mem_of_find? found
    have rows : ∀ recipe ∈ shielded.recipes, recipe.makes = recipe.key := by decide
    exact rows recipe member
  have typed : shielded.bindings.Typed := Bindings.Typed.empty.insert (.mk 1 ⟨"Client"⟩ none [])
  obtain ⟨outcome, outline, ends, drawn, _, _, _, _, itself⟩ :=
    resolveTyped?_reports_missing acyclic makes typed 1 ⟨"View"⟩
  have failed : outcome.result = .error (.missing ⟨"Session"⟩) :=
    Option.some.inj (congrArg (Option.map Outcome.result) ends).symm
  have called : outcome.calls.map Call.signature = [(⟨"Left"⟩, [⟨"Client"⟩])] :=
    congrArg (List.map Call.signature)
      (Option.some.inj (congrArg (Option.map Outcome.calls) ends).symm)
  refine ⟨outcome, outline, ends, drawn, failed, called, fun lacks => ?_⟩
  have same := failed.symm.trans (itself.mpr lacks)
  simp at same

end Container

end Wiring
