import Mathlib.Data.List.Induction
import Wiring.Container.Workbench

/-! Records of what hosts do with containers: act after act, with the answers. What a single step
can change is said here once, for statements about whole runs.
-/

namespace Wiring

-----------------------------------------------------------------------------------------
-- What has happened and still stands
-----------------------------------------------------------------------------------------

section Since

variable {α : Type} {happened spoils : α → Prop} {records : List α} {record : α}

/-- It has happened, and nothing that spoils it has been recorded since. -/
def Since (happened spoils : α → Prop) (records : List α) : Prop :=
  ∃ earlier record later,
    records = earlier ++ record :: later ∧ happened record ∧ ∀ other ∈ later, ¬ spoils other

/-- Nothing has happened in an empty log. -/
theorem not_since_nil : ¬ Since happened spoils [] := by
  rintro ⟨earlier, record, later, split, _⟩
  simp at split

/-- One more record makes it happen, or leaves it as it was without spoiling it. The last record is the
one that makes it happen, or one of those behind it.
-/
theorem since_append_singleton
    : Since happened spoils (records ++ [record])
      ↔ happened record ∨ Since happened spoils records ∧ ¬ spoils record := by
  constructor
  · rintro ⟨earlier, found, later, split, happens, spared⟩
    rcases List.eq_nil_or_concat later with rfl | ⟨between, last, rfl⟩
    · obtain ⟨_, rfl⟩ := List.append_singleton_inj.mp split
      exact .inl happens
    · have same : records = earlier ++ found :: between ∧ record = last := by
        apply List.append_singleton_inj.mp
        simpa using split
      obtain ⟨rfl, rfl⟩ := same
      exact .inr ⟨⟨earlier, found, between, rfl, happens, fun other member =>
        spared other (by simp [member])⟩, spared record (by simp)⟩
  · rintro (happens | ⟨⟨earlier, found, later, rfl, happens, spared⟩, spares⟩)
    · exact ⟨records, record, [], rfl, happens, by simp⟩
    · refine ⟨earlier, found, later ++ [record], by simp, happens, ?_⟩
      intro other member
      rcases List.mem_append.mp member with member | last
      · exact spared other member
      · rwa [List.mem_singleton.mp last]

end Since

-----------------------------------------------------------------------------------------
-- Recording acts
-----------------------------------------------------------------------------------------

/-- The act asks a container for something. -/
def Act.Resolves : Act → Prop
  | .resolve _ | .resolveTyped _ => True
  | _ => False

namespace Workbench

/-- An act on the container at an index, with its answer, and how many instances there were before.
-/
structure Entry where
  index : Nat
  act : Act
  before : Nat
  answer : Answer

namespace Entry

/-- The instance that was bound, if the act bound one. -/
def bound? (entry : Entry) : Option Instance :=
  match entry.answer with
  | .bound value => some value
  | _ => none

/-- The instance that was resolved, if the act resolved one. -/
def result? (entry : Entry) : Option Instance :=
  match entry.answer with
  | .resolved outcome => outcome.result.toOption
  | _ => none

/-- In the container at the index the instance was bound under its type. -/
structure Binds (entry : Entry) (index : Nat) (key : TypeKey) (value : Instance) : Prop where
  here : entry.index = index
  bound : entry.bound? = some value
  type : value.type = key

/-- The bindings of the container at the index were taken back. -/
structure Resets (entry : Entry) (index : Nat) : Prop where
  here : entry.index = index
  reset : entry.act = .reset

end Entry

/-- What is recorded of an act. -/
def entry (workbench : Workbench) (index : Nat) (act : Act) : Entry :=
  ⟨index, act, workbench.made, (workbench.step index act).2⟩

/-- The records of acts in order. -/
def log (workbench : Workbench) : List (Nat × Act) → List Entry
  | [] => []
  | (index, act) :: rest => workbench.entry index act :: (workbench.step index act).1.log rest

variable {workbench : Workbench}

/-- A further act takes its step from where the others have led, by induction on them. -/
theorem run_append_singleton (workbench : Workbench) (acts : List (Nat × Act)) (index : Nat)
    (act : Act)
    : (workbench.run (acts ++ [(index, act)])).1 = ((workbench.run acts).1.step index act).1 := by
  induction acts generalizing workbench with
  | nil => rfl
  | cons first rest ih => exact ih (workbench.step first.1 first.2).1

/-- A further act adds the entry that it has there, by the same induction. -/
theorem log_append_singleton (workbench : Workbench) (acts : List (Nat × Act)) (index : Nat)
    (act : Act)
    : workbench.log (acts ++ [(index, act)])
      = workbench.log acts ++ [(workbench.run acts).1.entry index act] := by
  induction acts generalizing workbench with
  | nil => rfl
  | cons first rest ih => exact congrArg _ (ih (workbench.step first.1 first.2).1)

-----------------------------------------------------------------------------------------
-- What a step does to the bindings
-----------------------------------------------------------------------------------------

/-- What the container at an index, if there is one, holds under a key. -/
def bindingOf? (workbench : Workbench) (index : Nat) (key : TypeKey) : Option Instance :=
  (workbench.container? index).bind fun container => container.bindings.get? key

/-- A container that is there holds the bindings that stand at its index. -/
theorem containers_of_container? {index : Nat} {container : Container}
    (there : workbench.container? index = some container)
    : workbench.containers[index]? = some container.bindings := by
  obtain ⟨bindings, held, rfl⟩ := Option.map_eq_some_iff.mp there
  exact held

/-- New bindings at one index change the container there and no other, by the lookup in an updated
list.
-/
theorem container?_setBindings {index : Nat} {container : Container}
    (there : workbench.container? index = some container) (bindings : Bindings) (other : Nat)
    : (workbench.setBindings index bindings).container? other
      = if other = index then some ⟨workbench.recipes, bindings⟩
        else workbench.container? other := by
  have within := (List.getElem?_eq_some_iff.mp (containers_of_container? there)).1
  by_cases same : other = index
  · subst same
    simp [container?, setBindings, within]
  · simp [container?, setBindings, same, List.getElem?_set_ne (Ne.symm same)]

/-- The binding of a key is looked up in the container at the index. -/
theorem bindingOf?_of_container? {index : Nat} {container : Container}
    (there : workbench.container? index = some container) (key : TypeKey)
    : workbench.bindingOf? index key = container.bindings.get? key := by
  rw [bindingOf?, there, Option.bind_some]

/-- New bindings count at their index, and elsewhere the old ones do. -/
theorem bindingOf?_setBindings {index : Nat} {container : Container}
    (there : workbench.container? index = some container) (bindings : Bindings) (other : Nat)
    (key : TypeKey)
    : (workbench.setBindings index bindings).bindingOf? other key
      = if other = index then bindings.get? key else workbench.bindingOf? other key := by
  rw [bindingOf?, container?_setBindings there]
  split <;> rfl

/-- A container that is set up holds nothing yet. -/
theorem bindingOf?_setUp (workbench : Workbench) (index : Nat) (key : TypeKey)
    : bindingOf? { workbench with containers := workbench.containers ++ [{}] } index key
      = workbench.bindingOf? index key := by
  simp only [bindingOf?, container?, List.getElem?_append]
  split
  · rfl
  · rename_i beyond
    rw [List.getElem?_eq_none (Nat.le_of_not_lt beyond)]
    cases found : [({} : Bindings)][index - workbench.containers.length]? with
    | none => rfl
    | some bindings =>
        obtain rfl := List.mem_singleton.mp (List.mem_of_getElem? found)
        rfl

/-- An instance is bound under its type, and nothing else changes. -/
theorem bindingOf?_bindIn {index : Nat} {container : Container}
    (there : workbench.container? index = some container) (value : Instance) (other : Nat)
    (key : TypeKey)
    : (workbench.bindIn index container.bindings value).1.bindingOf? other key
      = if other = index ∧ key = value.type then some value
        else workbench.bindingOf? other key := by
  rw [bindIn, bindingOf?_setBindings there]
  by_cases same : other = index
  · subst same
    simp [Bindings.get?_insert, bindingOf?_of_container? there]
  · simp [same]

/-- Nothing is bound by asking. -/
theorem bound?_of_resolves (index : Nat) {act : Act} (resolves : act.Resolves)
    : (workbench.entry index act).bound? = none := by
  have settled (outcome : Option (Outcome Instance))
      : (⟨index, act, workbench.made, (workbench.settle outcome).2⟩ : Entry).bound? = none := by
    cases outcome <;> rfl
  cases there : workbench.container? index with
  | none => simp [entry, step, there, Entry.bound?]
  | some container =>
      cases act with
      | resolve key => simpa only [entry, step, there] using settled _
      | resolveTyped key => simpa only [entry, step, there] using settled _
      | _ => exact resolves.elim

/-- What a step can do to the bindings: leave them, take back those of its container, or bind
an instance there, by the cases of the act. All that is said of bindings later on is drawn from it.
-/
theorem step_cases (workbench : Workbench) (index : Nat) (act : Act)
    : ((workbench.entry index act).bound? = none
        ∧ act ≠ .reset
        ∧ ∀ other key,
            (workbench.step index act).1.bindingOf? other key = workbench.bindingOf? other key)
      ∨ ((workbench.entry index act).bound? = none
        ∧ act = .reset
        ∧ ∀ other key,
            (workbench.step index act).1.bindingOf? other key
            = if other = index then none else workbench.bindingOf? other key)
      ∨ ∃ value,
          (workbench.entry index act).bound? = some value
          ∧ act ≠ .reset
          ∧ ∀ other key,
              (workbench.step index act).1.bindingOf? other key
              = if other = index ∧ key = value.type then some value
                else workbench.bindingOf? other key := by
  have settled {key : TypeKey} (outcome : Option (Outcome Instance)) (other : Nat)
      : (workbench.settle outcome).1.bindingOf? other key = workbench.bindingOf? other key := by
    cases outcome <;> rfl
  cases there : workbench.container? index with
  | none =>
      have stays : workbench.step index act = (workbench, .noContainer) := by
        simp [step, there]
      have unbound : (workbench.entry index act).bound? = none := by
        simp [entry, stays, Entry.bound?]
      by_cases reset : act = .reset
      · refine .inr (.inl ⟨unbound, reset, ?_⟩)
        intro other key
        rw [stays]
        split
        · rename_i here
          rw [here, bindingOf?, there, Option.bind_none]
        · rfl
      · exact .inl ⟨unbound, reset, fun other key => by rw [stays]⟩
  | some container =>
      cases act with
      | setUp =>
          refine .inl ⟨by simp [entry, step, there, Entry.bound?], by simp, ?_⟩
          intro other key
          rw [step, there]
          exact bindingOf?_setUp workbench other key
      | bindNew key label =>
          refine .inr (.inr ⟨.mk (workbench.made + 1) key label [], ?_, by simp, ?_⟩)
          · simp [entry, step, there, bindIn, Entry.bound?]
          · intro other key
            rw [step, there]
            exact bindingOf?_bindIn there _ other key
      | bind value =>
          refine .inr (.inr ⟨value, ?_, by simp, ?_⟩)
          · simp [entry, step, there, bindIn, Entry.bound?]
          · intro other key
            rw [step, there]
            exact bindingOf?_bindIn there value other key
      | resolve key =>
          refine .inl ⟨bound?_of_resolves index trivial, by simp, ?_⟩
          intro other key
          rw [step, there]
          exact settled _ other
      | resolveTyped key =>
          refine .inl ⟨bound?_of_resolves index trivial, by simp, ?_⟩
          intro other key
          rw [step, there]
          exact settled _ other
      | reset =>
          refine .inr (.inl ⟨by simp [entry, step, there, Entry.bound?], rfl, ?_⟩)
          intro other key
          rw [step, there]
          exact bindingOf?_setBindings there {} other key

/-- A step binds an instance under a key in a container, or leaves there what was there, unless it
takes it back or binds another one. Each case of `step_cases` says what is under the key, so records
decide it.
-/
theorem bindingOf?_step_iff {index other : Nat} {act : Act} {key : TypeKey} {value : Instance}
    : (workbench.step index act).1.bindingOf? other key = some value
      ↔ (workbench.entry index act).Binds other key value
        ∨ workbench.bindingOf? other key = some value
          ∧ ¬ ((workbench.entry index act).Resets other
              ∨ ∃ newer, (workbench.entry index act).Binds other key newer) := by
  rcases workbench.step_cases index act with
    ⟨unbound, kept, same⟩ | ⟨unbound, reset, taken⟩ | ⟨given, bound, kept, put⟩
  · have noBind (newer : Instance) : ¬ (workbench.entry index act).Binds other key newer :=
      fun binds => by simpa [unbound] using binds.bound
    have noReset : ¬ (workbench.entry index act).Resets other := fun resets => kept resets.reset
    simp [same, noBind, noReset]
  · have noBind (newer : Instance) : ¬ (workbench.entry index act).Binds other key newer :=
      fun binds => by simpa [unbound] using binds.bound
    have resets : (workbench.entry index act).Resets other ↔ other = index :=
      ⟨fun resets => resets.here.symm, fun here => ⟨here.symm, reset⟩⟩
    simp only [taken, noBind, resets, exists_false, or_false, false_or]
    by_cases here : other = index <;> simp [here]
  · have binds (newer : Instance)
        : (workbench.entry index act).Binds other key newer
          ↔ (other = index ∧ key = given.type) ∧ given = newer := by
      constructor
      · intro binds
        obtain rfl := Option.some.inj (bound.symm.trans binds.bound)
        exact ⟨⟨binds.here.symm, binds.type.symm⟩, rfl⟩
      · rintro ⟨⟨rfl, rfl⟩, rfl⟩
        exact ⟨rfl, bound, rfl⟩
    have noReset : ¬ (workbench.entry index act).Resets other := fun resets => kept resets.reset
    simp only [put, binds, noReset, false_or]
    by_cases here : other = index ∧ key = given.type <;> simp [here]

-----------------------------------------------------------------------------------------
-- What every container keeps
-----------------------------------------------------------------------------------------

/-- What holds of no bindings, and is kept when an instance is bound under its type, is kept by
every step in all containers.
-/
theorem containers_step {good : Bindings → Prop} (empty : good {})
    (insert : ∀ bindings value, good bindings → good (bindings.insert value.type value))
    (all : ∀ bindings ∈ workbench.containers, good bindings) (index : Nat) (act : Act)
    : ∀ bindings ∈ (workbench.step index act).1.containers, good bindings := by
  have replaced {bindings : Bindings} (new : good bindings)
      : ∀ held ∈ workbench.containers.set index bindings, good held := by
    intro held member
    rcases List.mem_or_eq_of_mem_set member with member | rfl
    · exact all held member
    · exact new
  have settled (outcome : Option (Outcome Instance))
      : ∀ held ∈ (workbench.settle outcome).1.containers, good held := by
    cases outcome <;> exact all
  cases there : workbench.container? index with
  | none => simpa only [step, there] using all
  | some container =>
      have here : good container.bindings :=
        all _ (List.mem_of_getElem? (containers_of_container? there))
      rw [step, there]
      cases act with
      | setUp =>
          intro held member
          rcases List.mem_append.mp member with member | new
          · exact all held member
          · obtain rfl := List.mem_singleton.mp new
            exact empty
      | bindNew key label => exact replaced (insert _ _ here)
      | bind value => exact replaced (insert _ _ here)
      | resolve key => exact settled _
      | resolveTyped key => exact settled _
      | reset => exact replaced empty

/-- It is kept however a host uses the containers, by induction on what it does. -/
theorem containers_run {good : Bindings → Prop} (empty : good {})
    (insert : ∀ bindings value, good bindings → good (bindings.insert value.type value))
    (all : ∀ bindings ∈ workbench.containers, good bindings) (acts : List (Nat × Act))
    : ∀ bindings ∈ (workbench.run acts).1.containers, good bindings := by
  induction acts generalizing workbench with
  | nil => exact all
  | cons act rest ih => exact ih (containers_step empty insert all act.1 act.2)

end Workbench

end Wiring
