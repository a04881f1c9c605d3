import Mathlib.Data.Set.Card
import Wiring.Proofs.Container.Records

/-! What a container holds follows from the records alone: under each key the instance that was
bound last, unless all bindings were taken back since. Nothing else that is done has a say in it.
-/

namespace Wiring

namespace Bindings

/-- No key has two entries. -/
def Distinct (bindings : Bindings) : Prop :=
  bindings.keys.Nodup

/-- No keys are no keys twice. -/
theorem Distinct.empty : Distinct {} :=
  List.nodup_nil

/-- Inserting keeps keys apart, since the old entry of the key is dropped before the new one goes in
front.
-/
theorem Distinct.insert {bindings : Bindings} (distinct : bindings.Distinct) (key : TypeKey)
    (value : Instance)
    : (bindings.insert key value).Distinct := by
  refine List.nodup_cons.mpr ⟨?_, distinct.sublist (List.filter_sublist.map _)⟩
  intro member
  obtain ⟨⟨other, held⟩, kept, same⟩ := List.mem_map.mp member
  have differs := (List.mem_filter.mp kept).2
  simp_all

/-- The keys are those that a lookup finds. -/
theorem mem_keys_iff {bindings : Bindings} {key : TypeKey}
    : key ∈ bindings.keys ↔ bindings.contains key = true := by
  simp [keys, contains, get?]

/-- The size is the number of keys that are bound. -/
theorem Distinct.ncard_eq {bindings : Bindings} (distinct : bindings.Distinct)
    : Set.ncard {key | bindings.contains key = true} = bindings.size := by
  have same : {key | bindings.contains key = true} = (bindings.keys.toFinset : Set TypeKey) := by
    ext key
    simp [mem_keys_iff]
  rw [same, Set.ncard_coe_finset, List.toFinset_card_of_nodup distinct, keys, List.length_map, size]

end Bindings

namespace Workbench

variable {workbench : Workbench} {index : Nat} {key : TypeKey} {value : Instance}

-----------------------------------------------------------------------------------------
-- What the records say
-----------------------------------------------------------------------------------------

/-- In the container at the index the key was bound, and no reset came after that. -/
def BoundSinceReset (log : List Entry) (index : Nat) (key : TypeKey) : Prop :=
  Since (fun entry => ∃ value, entry.Binds index key value) (fun entry => entry.Resets index) log

/-- In the container at the index the instance was bound under the key, and neither a reset nor
another bind under the key came after that.
-/
def LatestBind (log : List Entry) (index : Nat) (key : TypeKey) (value : Instance) : Prop :=
  Since (fun entry => entry.Binds index key value)
    (fun entry => entry.Resets index ∨ ∃ newer, entry.Binds index key newer) log

/-- A key that was bound since the last reset has a latest bind, by induction from the last record.
-/
theorem exists_latestBind_iff {log : List Entry}
    : (∃ value, LatestBind log index key value) ↔ BoundSinceReset log index key := by
  induction log using List.reverseRecOn with
  | nil =>
      constructor
      · rintro ⟨value, latest⟩
        exact absurd latest not_since_nil
      · intro bound
        exact absurd bound not_since_nil
  | append_singleton log entry ih =>
      simp only [LatestBind, BoundSinceReset, since_append_singleton] at ih ⊢
      rw [← ih]
      by_cases newer : ∃ value, entry.Binds index key value
      · simp [newer]
      · by_cases resets : entry.Resets index <;> simp [resets, not_exists.mp newer]

/-- A container holds under each key its latest bind, by induction on what the host does. -/
theorem bindingOf?_run_iff (empty : ∀ index key, workbench.bindingOf? index key = none)
    (acts : List (Nat × Act)) {index : Nat} {key : TypeKey} {value : Instance}
    : (workbench.run acts).1.bindingOf? index key = some value
      ↔ LatestBind (workbench.log acts) index key value := by
  induction acts using List.reverseRecOn generalizing value with
  | nil =>
      constructor
      · intro bound
        simp [run, empty] at bound
      · intro latest
        exact absurd latest not_since_nil
  | append_singleton acts act ih =>
      rw [run_append_singleton, log_append_singleton, bindingOf?_step_iff, LatestBind,
        since_append_singleton, ih, LatestBind]

/-- At the start nothing is bound. -/
theorem bindingOf?_start (recipes : List Recipe) (index : Nat) (key : TypeKey)
    : (start recipes).bindingOf? index key = none := by
  rcases index with _ | index <;> rfl

/-- Resolutions, and all that is done with other containers, leave a container's bindings alone, since
neither binds an instance in it nor resets it.
-/
theorem bindingOf?_step_of_apart {other : Nat} {act : Act} (apart : other ≠ index ∨ act.Resolves)
    (key : TypeKey)
    : (workbench.step other act).1.bindingOf? index key = workbench.bindingOf? index key := by
  have noBind (newer : Instance) : ¬ (workbench.entry other act).Binds index key newer := by
    rintro ⟨here, bound, _⟩
    rcases apart with elsewhere | resolves
    · exact elsewhere here
    · simp [bound?_of_resolves other resolves] at bound
  have noReset : ¬ (workbench.entry other act).Resets index := by
    rintro ⟨here, reset⟩
    obtain rfl : act = .reset := reset
    rcases apart with elsewhere | resolves
    · exact elsewhere here
    · exact resolves
  ext value
  rw [bindingOf?_step_iff]
  simp [noBind, noReset]

/-- What is bound follows the binds. However a host uses containers over the recipes, each container
has a key bound exactly when it was bound there since the last reset. It resolves that key to the
very instance of the latest such bind, with no call of a constructor. Resolutions, whatever comes of
them, and all that is done with other containers leave its bindings as they are. And its bindings
have as many entries as there are keys bound.
-/
theorem run_follows_binds (recipes : List Recipe) (acts : List (Nat × Act)) {index : Nat}
    {container : Container}
    (there : ((start recipes).run acts).1.container? index = some container)
    : (∀ key,
          container.isBound key = true
          ↔ BoundSinceReset ((start recipes).log acts) index key)
      ∧ (∀ key value,
          LatestBind ((start recipes).log acts) index key value
          → ∀ made,
              container.resolve? made key = some ⟨made, [], [.tookBound key.name], .ok value⟩
              ∧ container.resolveTyped? made key
                = some ⟨made, [], [.tookBound key.name], .ok value⟩)
      ∧ (∀ other act,
          other ≠ index ∨ act.Resolves
          → ∀ key,
              (((start recipes).run acts).1.step other act).1.bindingOf? index key
              = container.bindings.get? key)
      ∧ container.bindings.size
        = Set.ncard {key | BoundSinceReset ((start recipes).log acts) index key} := by
  have held (key : TypeKey) (value : Instance)
      : container.bindings.get? key = some value
        ↔ LatestBind ((start recipes).log acts) index key value := by
    rw [← bindingOf?_of_container? there, bindingOf?_run_iff (bindingOf?_start recipes)]
  have bound (key : TypeKey)
      : container.isBound key = true ↔ BoundSinceReset ((start recipes).log acts) index key := by
    rw [Container.isBound, Bindings.contains, Option.isSome_iff_exists, ← exists_latestBind_iff]
    exact exists_congr (held key)
  refine ⟨bound, ?_, ?_, ?_⟩
  · intro key value latest made
    have found := (held key value).mpr latest
    obtain ⟨_, _, _, _, binds, _⟩ := latest
    have resolved
        : container.resolve? made key = some ⟨made, [], [.tookBound key.name], .ok value⟩ := by
      simp only [Container.resolve?, Container.depthLimit, Container.resolveWithin, found]
    refine ⟨resolved, ?_⟩
    simp [Container.resolveTyped?, resolved, Outcome.typed, binds.type]
  · intro other act apart key
    rw [bindingOf?_step_of_apart apart, bindingOf?_of_container? there]
  · have distinct : container.bindings.Distinct := by
      refine containers_run .empty (fun _ _ distinct => distinct.insert _ _) ?_ acts
        container.bindings (List.mem_of_getElem? (containers_of_container? there))
      intro bindings member
      obtain rfl := List.mem_singleton.mp member
      exact .empty
    rw [← distinct.ncard_eq]
    exact congrArg Set.ncard (Set.ext bound)

/-- A host that binds contexts and a log in one container, and a context in another one. It takes
back the first context, and all that it has bound in the other container.
-/
def contextActs : List (Nat × Act) := [
  (0, .setUp),
  (0, .bindNew ⟨"Context"⟩ (some "first")),
  (1, .bindNew ⟨"Context"⟩ (some "elsewhere")),
  (0, .reset),
  (0, .bindNew ⟨"Context"⟩ (some "second")),
  (0, .bindNew ⟨"Log"⟩ none),
  (0, .bindNew ⟨"Context"⟩ (some "third")),
  (0, .resolveTyped ⟨"Client"⟩),
  (1, .reset)
]

/-- Witness: of three contexts that are bound before and after a reset, the last one counts, and two
keys have been bound since.
-/
theorem run_follows_binds_contexts
    : ∃ container,
        ((start []).run contextActs).1.container? 0 = some container
        ∧ container.isBound ⟨"Context"⟩ = true
        ∧ container.resolveTyped? 5 ⟨"Context"⟩
          = some ⟨5, [], [.tookBound "Context"], .ok (.mk 5 ⟨"Context"⟩ (some "third") [])⟩
        ∧ Set.ncard {key | BoundSinceReset ((start []).log contextActs) 0 key} = 2 := by
  obtain ⟨container, there⟩
      : ∃ container, ((start []).run contextActs).1.container? 0 = some container :=
    ⟨_, rfl⟩
  obtain ⟨bound, resolved, _, size⟩ := run_follows_binds [] contextActs there
  have latest
      : LatestBind ((start []).log contextActs) 0 ⟨"Context"⟩
          (.mk 5 ⟨"Context"⟩ (some "third") []) :=
    (bindingOf?_run_iff (bindingOf?_start []) contextActs).mp rfl
  have two : container.bindings.size = 2 :=
    (Option.some.inj (congrArg (Option.map fun container => container.bindings.size) there)).symm
  exact ⟨container, there, (bound _).mpr (exists_latestBind_iff.mp ⟨_, latest⟩),
    (resolved _ _ latest 5).2, size.symm.trans two⟩

end Workbench

end Wiring
