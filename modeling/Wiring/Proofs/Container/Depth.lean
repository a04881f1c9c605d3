import Mathlib.Data.List.Nodup
import Wiring.Proofs.Container.Evaluation

/-! How deep resolving goes. The numbers of instances have no say in it, more depth changes no
answer, and a resolution that ends at all ends within one level more than there are recipes: the
keys on its longest way down differ, and all but the last of them have a recipe.
-/

namespace Wiring

namespace Outcome

/-- The type of what is found, or why nothing is; numbers aside this is all that resolving goes by. -/
def verdict (outcome : Outcome Instance) : Except ResolutionFault TypeKey :=
  outcome.result.map Instance.type

/-- A verdict forgets values, not faults. -/
theorem verdict_eq_error_iff {outcome : Outcome Instance} {fault : ResolutionFault}
    : outcome.verdict = .error fault ↔ outcome.result = .error fault := by
  unfold verdict
  cases outcome.result <;> simp [Except.map]

/-- A verdict of success names the type of the value, and that alone. -/
theorem verdict_eq_ok_iff {outcome : Outcome Instance} {type : TypeKey}
    : outcome.verdict = .ok type ↔ ∃ value, outcome.result = .ok value ∧ value.type = type := by
  unfold verdict
  cases outcome.result <;> simp [Except.map]

/-- A type check goes by the verdict alone. -/
theorem typed_verdict (key : TypeKey) (outcome : Outcome Instance)
    : (outcome.typed key).verdict
      = outcome.verdict.bind fun type =>
          if type = key then .ok type else .error (.mismatch key) := by
  unfold typed verdict
  cases succeeded : outcome.result with
  | error fault => simp [succeeded, Except.map, Except.bind]
  | ok value =>
      by_cases same : value.type = key <;> simp [same, succeeded, Except.map, Except.bind]

end Outcome

namespace Container

variable {container : Container}

/-- Whether keys in order were all resolved, or why not. -/
def ending (parts : Outcome (List Instance)) : Except ResolutionFault Unit :=
  parts.result.map fun _ => ()

/-- The ending of several resolutions has their fault. -/
theorem ending_eq_error_iff {parts : Outcome (List Instance)} {fault : ResolutionFault}
    : ending parts = .error fault ↔ parts.result = .error fault := by
  unfold ending
  cases parts.result <;> simp [Except.map]

/-- Several resolutions end well where all of them have values. -/
theorem ending_eq_ok_iff {parts : Outcome (List Instance)}
    : ending parts = .ok () ↔ ∃ values, parts.result = .ok values := by
  unfold ending
  cases parts.result <;> simp [Except.map]

/-- A value in front of the others makes no difference to how keys in order end. -/
theorem ending_prepend (made : Nat) (calls : List Call) (events : List Event) (value : Instance)
    (rest : Outcome (List Instance))
    : ending ⟨made, calls, events, rest.result.map (value :: ·)⟩ = ending rest := by
  unfold ending
  cases rest.result <;> rfl

/-- Keys in order end alike under resolvers that end alike for each of them, by induction on the keys:
the type check looks at the verdict alone, and the rest goes on after a success on both sides.
-/
theorem resolveEach_alike {resolve other : Nat → TypeKey → Option (Outcome Instance)}
    {keys : List TypeKey}
    (alike : ∀ key ∈ keys,
      ∀ made made', (resolve made key).map Outcome.verdict = (other made' key).map Outcome.verdict)
    (made made' : Nat)
    : (resolveEach resolve made keys).map ending = (resolveEach other made' keys).map ending := by
  induction keys generalizing made made' with
  | nil => rfl
  | cons first rest ih =>
      have same := alike first (by simp) made made'
      have below := ih fun key member => alike key (List.mem_cons_of_mem first member)
      cases found : resolve made first with
      | none =>
          rw [found, Option.map_none, eq_comm, Option.map_eq_none_iff] at same
          simp [resolveEach, found, same]
      | some head =>
          rw [found, Option.map_some, eq_comm, Option.map_eq_some_iff] at same
          obtain ⟨head', found', verdict⟩ := same
          have typed : (head'.typed first).verdict = (head.typed first).verdict := by
            rw [Outcome.typed_verdict, Outcome.typed_verdict, verdict]
          cases ended : (head.typed first).result with
          | error fault =>
              rw [Outcome.verdict_eq_error_iff.mpr ended, Outcome.verdict_eq_error_iff] at typed
              simp [resolveEach, found, found', Outcome.andThen, ended, typed, ending, Except.map]
          | ok value =>
              rw [Outcome.verdict_eq_ok_iff.mpr ⟨value, ended, rfl⟩,
                Outcome.verdict_eq_ok_iff] at typed
              obtain ⟨value', ended', _⟩ := typed
              simpa only [resolveEach, found, found', Outcome.andThen, ended, ended',
                Option.bind_some, Option.map_map, Function.comp_def, ending_prepend]
                using below (head.typed first).made (head'.typed first).made

/-- One level of resolving ends alike over resolvers that end alike for the parameters, since the
verdict of a construction is that of its parameters, or the type that the recipe makes.
-/
theorem construction_alike {key : TypeKey} {recipe : Recipe}
    {parts parts' : Option (Outcome (List Instance))}
    (alike : parts.map ending = parts'.map ending)
    : (parts.bind fun outcome =>
          ({ outcome with events := .constructing key.name :: outcome.events }).andThen
            fun made values => some (construct recipe made values)).map Outcome.verdict
      = (parts'.bind fun outcome =>
          ({ outcome with events := .constructing key.name :: outcome.events }).andThen
            fun made values => some (construct recipe made values)).map Outcome.verdict := by
  cases parts with
  | none =>
      rw [Option.map_none, eq_comm, Option.map_eq_none_iff] at alike
      simp [alike]
  | some parts =>
      rw [Option.map_some, eq_comm, Option.map_eq_some_iff] at alike
      obtain ⟨parts', rfl, same⟩ := alike
      cases ended : parts.result with
      | error fault =>
          rw [ending_eq_error_iff.mpr ended, ending_eq_error_iff] at same
          simp [Outcome.andThen, ended, same, Outcome.verdict, Except.map]
      | ok values =>
          rw [ending_eq_ok_iff.mpr ⟨values, ended⟩, ending_eq_ok_iff] at same
          obtain ⟨values', ended'⟩ := same
          simp [Outcome.andThen, ended, ended', Outcome.verdict, Except.map, construct,
            Instance.type]

/-- Which numbers the instances get makes no difference to whether and how a resolution ends, by
induction on the depth.
-/
theorem resolveWithin_alike (container : Container) (depth made made' : Nat) (key : TypeKey)
    : (container.resolveWithin depth made key).map Outcome.verdict
      = (container.resolveWithin depth made' key).map Outcome.verdict := by
  induction depth generalizing made made' key with
  | zero => rfl
  | succ depth ih =>
      unfold resolveWithin
      cases bound : container.bindings.get? key with
      | some value => rfl
      | none =>
          cases found : Recipe.find? container.recipes key with
          | none => rfl
          | some recipe =>
              exact construction_alike
                (resolveEach_alike (fun key _ made made' => ih made made' key) made made')

/-- Whether a resolution ends within a depth is the same for all numbers of instances. -/
theorem isSome_resolveWithin_congr (container : Container) (depth made made' : Nat) (key : TypeKey)
    : (container.resolveWithin depth made key).isSome
      = (container.resolveWithin depth made' key).isSome := by
  have alike := congrArg Option.isSome (container.resolveWithin_alike depth made made' key)
  simpa only [Option.isSome_map] using alike

/-- A resolver that answers more keeps what keys in order came to, by induction on the keys. -/
theorem resolveEach_mono {resolve other : Nat → TypeKey → Option (Outcome Instance)}
    {keys : List TypeKey}
    (more : ∀ key ∈ keys,
      ∀ made outcome, resolve made key = some outcome → other made key = some outcome)
    {made : Nat} {outcome : Outcome (List Instance)}
    (ends : resolveEach resolve made keys = some outcome)
    : resolveEach other made keys = some outcome := by
  induction keys generalizing made outcome with
  | nil => exact ends
  | cons first rest ih =>
      simp only [resolveEach, Option.bind_eq_some_iff] at ends ⊢
      obtain ⟨head, found, ends⟩ := ends
      refine ⟨head, more first (by simp) made head found, ?_⟩
      cases ended : (head.typed first).result with
      | error fault => simpa only [Outcome.andThen, ended] using ends
      | ok value =>
          simp only [Outcome.andThen, ended, Option.map_map, Option.map_eq_some_iff] at ends ⊢
          obtain ⟨others, resolved, same⟩ := ends
          have kept := ih (fun key member => more key (List.mem_cons_of_mem first member)) resolved
          exact ⟨others, kept, same⟩

/-- One level keeps its answer when the parameters of the key's recipe keep theirs. The other cases of
a level do not depend on the depth.
-/
theorem resolveWithin_succ_mono {shallow deep made : Nat} {key : TypeKey}
    {outcome : Outcome Instance}
    (more : ∀ recipe,
      Recipe.find? container.recipes key = some recipe
      → ∀ parameter ∈ recipe.parameters,
          ∀ made outcome,
            container.resolveWithin shallow made parameter = some outcome
            → container.resolveWithin deep made parameter = some outcome)
    (ends : container.resolveWithin (shallow + 1) made key = some outcome)
    : container.resolveWithin (deep + 1) made key = some outcome := by
  unfold resolveWithin at ends ⊢
  cases bound : container.bindings.get? key with
  | some value => simpa only [bound] using ends
  | none =>
      cases found : Recipe.find? container.recipes key with
      | none => simpa only [bound, found] using ends
      | some recipe =>
          simp only [bound, found, Option.bind_eq_some_iff] at ends ⊢
          obtain ⟨parts, resolved, constructed⟩ := ends
          exact ⟨parts, resolveEach_mono (more recipe found) resolved, constructed⟩

/-- More depth changes no answer, by induction on the depth that was enough. -/
theorem resolveWithin_mono {shallow deep made : Nat} {key : TypeKey} {outcome : Outcome Instance}
    (deeper : shallow ≤ deep) (ends : container.resolveWithin shallow made key = some outcome)
    : container.resolveWithin deep made key = some outcome := by
  induction shallow generalizing deep made key outcome with
  | zero => simp [resolveWithin] at ends
  | succ shallow ih =>
      obtain ⟨deep, rfl⟩ : ∃ rest, deep = rest + 1 := ⟨deep - 1, by omega⟩
      exact resolveWithin_succ_mono (fun _ _ _ _ _ _ => ih (by omega)) ends

/-- A depth within which the resolution of a key ends, whatever the numbers of the instances. -/
def EndsWithin (container : Container) (depth : Nat) (key : TypeKey) : Prop :=
  (container.resolveWithin depth 0 key).isSome = true

/-- Whether a depth suffices does not depend on how many instances have been made before. -/
theorem endsWithin_iff {depth : Nat} (made : Nat) {key : TypeKey}
    : container.EndsWithin depth key
      ↔ ∃ outcome, container.resolveWithin depth made key = some outcome := by
  rw [EndsWithin, isSome_resolveWithin_congr container depth 0 made, Option.isSome_iff_exists]

/-- What ends within a depth ends within any greater one, with the same outcome. -/
theorem EndsWithin.mono {shallow deep : Nat} {key : TypeKey}
    (ends : container.EndsWithin shallow key) (deeper : shallow ≤ deep)
    : container.EndsWithin deep key := by
  obtain ⟨outcome, ends⟩ := (endsWithin_iff 0).mp ends
  exact (endsWithin_iff 0).mpr ⟨outcome, resolveWithin_mono deeper ends⟩

/-- A key that needs a level more than `depth + 1` has a recipe, and a parameter that needs one level
less. If there were none, all of its parameters and so the key itself would end a level earlier.
-/
theorem exists_parameter_of_not_endsWithin {depth : Nat} {key : TypeKey}
    (ends : container.EndsWithin (depth + 2) key)
    (early : ¬ container.EndsWithin (depth + 1) key)
    : ∃ recipe parameter,
        Recipe.find? container.recipes key = some recipe
        ∧ container.EndsWithin (depth + 1) parameter
        ∧ ¬ container.EndsWithin depth parameter := by
  by_contra none
  -- Then all parameters that end at all end a level earlier, and the key with them.
  apply early
  obtain ⟨outcome, ends⟩ := (endsWithin_iff 0).mp ends
  refine (endsWithin_iff 0).mpr ⟨outcome, resolveWithin_succ_mono ?_ ends⟩
  intro recipe found parameter _ made outcome ends
  have below : container.EndsWithin depth parameter := by
    by_contra late
    exact none ⟨recipe, parameter, found, (endsWithin_iff made).mpr ⟨outcome, ends⟩, late⟩
  obtain ⟨earlier, ended⟩ := (endsWithin_iff made).mp below
  have same := resolveWithin_mono (Nat.le_succ depth) ended
  rwa [ends.symm.trans same]

/-- A key that needs `depth + 1` levels comes above `depth` different keys with recipes, by
induction on the depth: each next one needs a level less than the one before.
-/
theorem exists_chain_of_not_endsWithin {depth : Nat} {key : TypeKey}
    (ends : container.EndsWithin (depth + 1) key) (early : ¬ container.EndsWithin depth key)
    : ∃ keys : List TypeKey,
        keys.length = depth
        ∧ keys.Nodup
        ∧ ∀ other ∈ keys,
            container.EndsWithin (depth + 1) other
            ∧ ∃ recipe, Recipe.find? container.recipes other = some recipe := by
  induction depth generalizing key with
  | zero => exact ⟨[], rfl, .nil, by simp⟩
  | succ depth ih =>
      obtain ⟨recipe, parameter, found, endsBelow, late⟩ :=
        exists_parameter_of_not_endsWithin ends early
      obtain ⟨keys, length, distinct, below⟩ := ih endsBelow late
      have apart : key ∉ keys := fun member => early (below key member).1
      refine ⟨key :: keys, by simp [length], List.nodup_cons.mpr ⟨apart, distinct⟩, ?_⟩
      intro other member
      rcases List.mem_cons.mp member with rfl | member
      · exact ⟨ends, recipe, found⟩
      · exact ⟨(below other member).1.mono (Nat.le_succ _), (below other member).2⟩

/-- A recipe that is found stands in the table under the key. -/
theorem mem_keys_of_find? {recipes : List Recipe} {key : TypeKey} {recipe : Recipe}
    (found : Recipe.find? recipes key = some recipe)
    : key ∈ recipes.map Recipe.key := by
  obtain ⟨member, same⟩ := Recipe.mem_of_find? found
  exact List.mem_map.mpr ⟨recipe, member, same⟩

/-- A resolution that ends at all ends within the depth limit. A key that needed more levels would have
a chain of keys with recipes below it, each different, that is longer than the table.
-/
theorem EndsWithin.depthLimit {depth : Nat} {key : TypeKey}
    (ends : container.EndsWithin depth key)
    : container.EndsWithin container.depthLimit key := by
  induction depth with
  | zero => simp [EndsWithin, resolveWithin] at ends
  | succ depth ih =>
      by_cases early : container.EndsWithin depth key
      · exact ih early
      · obtain ⟨keys, length, distinct, below⟩ := exists_chain_of_not_endsWithin ends early
        have included : keys ⊆ container.recipes.map Recipe.key := by
          intro other member
          obtain ⟨recipe, found⟩ := (below other member).2
          exact mem_keys_of_find? found
        have bound := distinct.length_le_of_subset included
        rw [length, List.length_map] at bound
        exact ends.mono (Nat.succ_le_succ bound)

/-- The depth limit cuts no resolution short: what a container answers is what some depth answers. -/
theorem resolve?_eq_some_iff {made : Nat} {key : TypeKey} {outcome : Outcome Instance}
    : container.resolve? made key = some outcome
      ↔ ∃ depth, container.resolveWithin depth made key = some outcome := by
  constructor
  · intro ends
    exact ⟨_, ends⟩
  · rintro ⟨depth, ends⟩
    have within : container.EndsWithin depth key := (endsWithin_iff made).mpr ⟨outcome, ends⟩
    obtain ⟨other, limited⟩ := (endsWithin_iff made).mp within.depthLimit
    rcases Nat.le_total depth container.depthLimit with deeper | shallower
    · exact resolveWithin_mono deeper ends
    · have same := resolveWithin_mono shallower limited
      rw [ends] at same
      rwa [Option.some.inj same]

/-- Keys in order come to an end when each of them does. -/
theorem exists_resolveEach {resolve : Nat → TypeKey → Option (Outcome Instance)}
    {keys : List TypeKey} (made : Nat)
    (ends : ∀ key ∈ keys, ∀ made, ∃ outcome, resolve made key = some outcome)
    : ∃ outcome, resolveEach resolve made keys = some outcome := by
  induction keys generalizing made with
  | nil => exact ⟨_, rfl⟩
  | cons first rest ih =>
      obtain ⟨head, found⟩ := ends first (by simp) made
      obtain ⟨others, resolved⟩ :=
        ih (head.typed first).made fun key member => ends key (List.mem_cons_of_mem first member)
      simp only [resolveEach, found, Option.bind_some, Outcome.andThen]
      cases (head.typed first).result with
      | error fault => exact ⟨_, rfl⟩
      | ok value => exact ⟨_, by simp [resolved]; rfl⟩

/-- One depth is enough for several keys that end. -/
theorem exists_common_depth {keys : List TypeKey}
    (ends : ∀ key ∈ keys, ∃ depth, container.EndsWithin depth key)
    : ∃ depth, ∀ key ∈ keys, container.EndsWithin depth key := by
  induction keys with
  | nil => exact ⟨0, by simp⟩
  | cons first rest ih =>
      obtain ⟨depth, here⟩ := ends first (by simp)
      obtain ⟨other, below⟩ := ih fun key member => ends key (List.mem_cons_of_mem first member)
      refine ⟨max depth other, ?_⟩
      intro key member
      rcases List.mem_cons.mp member with rfl | member
      · exact here.mono (Nat.le_max_left _ _)
      · exact (below key member).mono (Nat.le_max_right _ _)

/-- A key ends when all parameters of its recipe do, if it has one. One depth is enough for all
parameters, and the key needs one level more.
-/
theorem exists_endsWithin {key : TypeKey}
    (below : ∀ recipe,
      Recipe.find? container.recipes key = some recipe
      → ∀ parameter ∈ recipe.parameters, ∃ depth, container.EndsWithin depth parameter)
    : ∃ depth, container.EndsWithin depth key := by
  cases bound : container.bindings.get? key with
  | some value => exact ⟨1, by simp [EndsWithin, resolveWithin, bound]⟩
  | none =>
      cases found : Recipe.find? container.recipes key with
      | none => exact ⟨1, by simp [EndsWithin, resolveWithin, bound, found]⟩
      | some recipe =>
          obtain ⟨depth, parameters⟩ := exists_common_depth (below recipe found)
          obtain ⟨parts, resolved⟩ := exists_resolveEach 0 fun parameter member made =>
            (endsWithin_iff made).mp (parameters parameter member)
          refine ⟨depth + 1, (endsWithin_iff 0).mpr ?_⟩
          simp only [resolveWithin, bound, found, resolved, Option.bind_some, Outcome.andThen]
          cases parts.result with
          | error fault => exact ⟨_, rfl⟩
          | ok values => exact ⟨_, rfl⟩

end Container

end Wiring
