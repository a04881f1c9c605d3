import Mathlib.Data.List.Duplicate
import Wiring.Proofs.Container.BindHistory
import Wiring.Proofs.Container.PostOrder

/-! Nothing that is made is used twice unless the host binds it. All that exists has a number up to
the count of instances, and whatever a resolution makes gets a number above it; so a result meets
what is older only where a binding brings it in.
-/

namespace Wiring

-----------------------------------------------------------------------------------------
-- The objects of which an instance consists
-----------------------------------------------------------------------------------------

namespace Instance

mutual

/-- The instance with all that hangs below it: each after its parts, and as often as it occurs. -/
def nodes : Instance → List Instance
  | mk id type label parts => nodesEach parts ++ [mk id type label parts]

/-- The nodes of several instances, in order. -/
def nodesEach : List Instance → List Instance
  | [] => []
  | first :: rest => nodes first ++ nodesEach rest

end

end Instance

open Instance

/-- Calls that are made in order give their products numbers in order. -/
theorem Call.map_id_products (made : Nat) (calls : List Call)
    : (products made calls).map Instance.id = List.range' (made + 1) calls.length := by
  rw [products, List.map_map, ← List.zipIdx_map_snd]
  rfl

-----------------------------------------------------------------------------------------
-- What a single resolution makes
-----------------------------------------------------------------------------------------

namespace Container

variable {container : Container} {limit made : Nat}

/-- The nodes with numbers above the limit are what the calls have made, each of them once. All
other nodes hang below what is bound.
-/
structure MadeAfresh (container : Container) (limit made : Nat) (calls : List Call)
    (nodes : List Instance)
    : Prop where
  new : nodes.filter (fun node => limit < node.id) = Call.products made calls
  old
    : ∀ node ∈ nodes,
        node.id ≤ limit
        → ∃ key bound, container.bindings.get? key = some bound ∧ node ∈ bound.nodes

/-- No calls make no nodes. -/
theorem MadeAfresh.nil : container.MadeAfresh limit made [] [] :=
  ⟨rfl, by simp⟩

/-- What is made in two stages is made afresh, since the second stage numbers on where the first one
stopped.
-/
theorem MadeAfresh.append {calls others : List Call} {nodes more : List Instance}
    (first : container.MadeAfresh limit made calls nodes)
    (rest : container.MadeAfresh limit (made + calls.length) others more)
    : container.MadeAfresh limit made (calls ++ others) (nodes ++ more) := by
  constructor
  · rw [List.filter_append, first.new, rest.new, Call.products_append]
  · intro node member
    rcases List.mem_append.mp member with member | member
    · exact first.old node member
    · exact rest.old node member

/-- What was bound before brings in no new nodes. -/
theorem MadeAfresh.taken {key : TypeKey} {value : Instance}
    (bound : container.bindings.get? key = some value)
    (older : ∀ node ∈ value.nodes, node.id ≤ limit)
    : container.MadeAfresh limit made [] value.nodes := by
  constructor
  · refine List.filter_eq_nil_iff.mpr fun node member => ?_
    simpa using older node member
  · intro node member _
    exact ⟨key, value, bound, member⟩

/-- A call makes one more node, above the parts it is handed. -/
theorem MadeAfresh.built {calls : List Call} {parts : List Instance} (later : limit ≤ made)
    (below : container.MadeAfresh limit made calls (nodesEach parts)) (makes : TypeKey)
    : container.MadeAfresh limit made (calls ++ [⟨makes, parts⟩])
        (Instance.mk (made + calls.length + 1) makes none parts).nodes := by
  have node
      : container.MadeAfresh limit (made + calls.length) [⟨makes, parts⟩]
          [.mk (made + calls.length + 1) makes none parts] := by
    constructor
    · have above : limit < made + calls.length + 1 := by omega
      simp [Instance.id, above, Call.products, Call.product]
    · intro node member older
      obtain rfl := List.mem_singleton.mp member
      simp only [Instance.id] at older
      omega
  exact below.append node

/-- What is resolved consists of what the calls make and of what is bound, level by level. -/
theorem invariant_madeAfresh
    (older : ∀ key bound,
      container.bindings.get? key = some bound → ∀ node ∈ bound.nodes, node.id ≤ limit)
    : container.Invariant
        (fun made _ outcome =>
          limit ≤ made
          → outcome.made = made + outcome.calls.length
            ∧ ∀ value,
                outcome.result = .ok value
                → container.MadeAfresh limit made outcome.calls value.nodes)
        (fun made _ outcome =>
          limit ≤ made
          → outcome.made = made + outcome.calls.length
            ∧ ∀ values,
                outcome.result = .ok values
                → container.MadeAfresh limit made outcome.calls (nodesEach values)) where
  taken bound := by
    intro _
    refine ⟨rfl, ?_⟩
    intro value succeeded
    obtain rfl := Except.ok.inj succeeded
    exact .taken bound (older _ _ bound)
  missing _ _ := by simp
  spoiled _ _ parameters _ := by
    intro later
    exact ⟨(parameters later).1, by simp⟩
  built {made key recipe values parts} _ _ parameters succeeded := by
    intro later
    obtain ⟨counted, below⟩ := parameters later
    refine ⟨by simp [counted, Nat.add_assoc], ?_⟩
    intro value same
    obtain rfl := Except.ok.inj same
    rw [counted]
    exact (below values succeeded).built later recipe.makes
  finished := by
    intro made _
    refine ⟨rfl, ?_⟩
    intro values succeeded
    obtain rfl := Except.ok.inj succeeded
    exact .nil
  stuck one _ := by
    intro later
    exact ⟨(one later).1, by simp⟩
  advanced {made first rest value head others} one succeeded _ each := by
    intro later
    obtain ⟨counted, here⟩ := one later
    obtain ⟨countedRest, below⟩ := each (by omega)
    refine ⟨by simp [countedRest, counted, Nat.add_assoc], ?_⟩
    intro values same
    obtain ⟨further, remaining, rfl⟩ := map_eq_ok_iff.mp same
    have below := below further remaining
    rw [counted] at below
    exact (here value succeeded).append below

end Container

-----------------------------------------------------------------------------------------
-- What a step makes
-----------------------------------------------------------------------------------------

namespace Workbench

variable {workbench : Workbench} {own index : Nat} {act : Act} {log : List Entry}

/-- The instances that the act has made, in order; those of a resolution that failed are among them.
-/
def Entry.products (entry : Entry) : List Instance :=
  match entry.act, entry.answer with
  | .bindNew _ _, .bound value => [value]
  | _, .resolved outcome => Call.products entry.before outcome.calls
  | _, _ => []

/-- The object is one of those that the act has made. -/
def Entry.Makes (entry : Entry) (node : Instance) : Prop :=
  node.id ∈ entry.products.map Instance.id

instance (entry : Entry) (node : Instance) : Decidable (entry.Makes node) :=
  inferInstanceAs (Decidable (_ ∈ _))

/-- What asking a container comes to: nothing, or an outcome with the instances and calls of a
resolution, which it may refuse. The typed form of resolving differs in the check alone.
-/
theorem step_of_resolves {container : Container}
    (there : workbench.container? index = some container) (resolves : act.Resolves)
    : workbench.step index act = (workbench, .endless)
      ∨ ∃ key outcome untyped,
          workbench.step index act = ({ workbench with made := outcome.made }, .resolved outcome)
          ∧ container.resolve? workbench.made key = some untyped
          ∧ outcome.made = untyped.made
          ∧ outcome.calls = untyped.calls
          ∧ ∀ value, outcome.result = .ok value → untyped.result = .ok value := by
  cases act with
  | resolve key =>
      cases ends : container.resolve? workbench.made key with
      | none => exact .inl (by simp [step, there, ends, settle])
      | some outcome =>
          exact .inr ⟨key, outcome, outcome, by simp [step, there, ends, settle], ends, rfl, rfl,
            fun _ => id⟩
  | resolveTyped key =>
      cases ends : container.resolve? workbench.made key with
      | none => exact .inl (by simp [step, there, ends, settle, Container.resolveTyped?])
      | some outcome =>
          refine .inr ⟨key, outcome.typed key, outcome,
            by simp [step, there, ends, settle, Container.resolveTyped?], ends, ?_, ?_, ?_⟩
          · rw [Outcome.typed_eq]
          · rw [Outcome.typed_eq]
          · intro value passed
            exact (Outcome.typed_result_eq_ok_iff.mp passed).1
  | setUp | bindNew _ _ | bind _ | reset => exact resolves.elim

/-- A step counts what it makes, and numbers it in order, by the cases of the act: resolutions number
their calls, and only a new binding makes an instance otherwise.
-/
theorem products_step (workbench : Workbench) (index : Nat) (act : Act)
    : (workbench.step index act).1.made
        = workbench.made + (workbench.entry index act).products.length
      ∧ (workbench.entry index act).products.map Instance.id
        = List.range' (workbench.made + 1) (workbench.entry index act).products.length := by
  cases there : workbench.container? index with
  | none => cases act <;> simp [entry, step, there, Entry.products]
  | some container =>
      by_cases resolves : act.Resolves
      · rcases step_of_resolves there resolves with
          endless | ⟨key, outcome, untyped, stepped, ends, made, calls, _⟩
        · cases act <;> simp [entry, endless, Entry.products]
        · obtain ⟨counted, _⟩ := (Container.invariant_accounts container).resolveWithin ends
          have products
              : (workbench.entry index act).products
                = Call.products workbench.made outcome.calls := by
            cases act <;> simp [entry, stepped, Entry.products]
          have length : (Call.products workbench.made outcome.calls).length
              = outcome.calls.length := by
            simp [Call.products]
          rw [products, length, Call.map_id_products, stepped]
          exact ⟨by rw [made, counted, calls], rfl⟩
      · cases act with
        | resolve key | resolveTyped key => exact absurd trivial resolves
        | _ => simp [entry, step, there, bindIn, setBindings, Entry.products, Instance.id]

/-- What an act has made are the instances that exist only after it. -/
theorem makes_iff (node : Instance)
    : (workbench.entry index act).Makes node
      ↔ workbench.made < node.id ∧ node.id ≤ (workbench.step index act).1.made := by
  obtain ⟨made, numbered⟩ := workbench.products_step index act
  rw [Entry.Makes, numbered, made, List.mem_range'_1]
  omega

/-- What is answered consists of what the act has made and of what the container holds. For a
resolution this is `invariant_madeAfresh`, and no other act answers an instance.
-/
theorem result?_madeAfresh {value : Instance}
    (older : ∀ key bound,
      workbench.bindingOf? index key = some bound
      → ∀ node ∈ bound.nodes, node.id ≤ workbench.made)
    (result : (workbench.entry index act).result? = some value)
    : value.nodes.filter (fun node => workbench.made < node.id)
        = (workbench.entry index act).products
      ∧ ∀ node ∈ value.nodes,
          node.id ≤ workbench.made
          → ∃ key bound, workbench.bindingOf? index key = some bound ∧ node ∈ bound.nodes := by
  cases there : workbench.container? index with
  | none => simp [entry, step, there, Entry.result?] at result
  | some container =>
      simp only [bindingOf?_of_container? there] at older ⊢
      by_cases resolves : act.Resolves
      · rcases step_of_resolves there resolves with
          endless | ⟨key, outcome, untyped, stepped, ends, _, calls, succeeds⟩
        · simp [entry, endless, Entry.result?] at result
        · have succeeded : outcome.result = .ok value := by
            cases held : outcome.result with
            | error fault => simp [entry, stepped, Entry.result?, held, Except.toOption] at result
            | ok found => simpa [entry, stepped, Entry.result?, held, Except.toOption] using result
          obtain ⟨_, afresh⟩ :=
            (Container.invariant_madeAfresh older).resolveWithin ends (Nat.le_refl _)
          obtain ⟨new, old⟩ := afresh value (succeeds value succeeded)
          refine ⟨?_, old⟩
          rw [new, ← calls]
          cases act <;> simp [entry, stepped, Entry.products]
      · cases act with
        | resolve key | resolveTyped key => exact absurd trivial resolves
        | _ => simp [entry, step, there, bindIn, Entry.result?] at result

/-- What is answered exists by then. -/
theorem le_made_of_result? {value node : Instance}
    (older : ∀ key bound,
      workbench.bindingOf? index key = some bound
      → ∀ node ∈ bound.nodes, node.id ≤ workbench.made)
    (result : (workbench.entry index act).result? = some value) (member : node ∈ value.nodes)
    : node.id ≤ (workbench.step index act).1.made := by
  by_cases before : node.id ≤ workbench.made
  · rw [(workbench.products_step index act).1]
    exact before.trans (Nat.le_add_right _ _)
  · obtain ⟨new, _⟩ := result?_madeAfresh older result
    have made : node ∈ (workbench.entry index act).products := by
      rw [← new]
      exact List.mem_filter.mpr ⟨member, by simpa using before⟩
    exact ((makes_iff node).mp (List.mem_map_of_mem made)).2

/-- What occurs twice in an answer has existed before. What the act has made is numbered in a row, so
none of it is there twice.
-/
theorem le_made_of_duplicate {value : Instance} {id : Nat}
    (older : ∀ key bound,
      workbench.bindingOf? index key = some bound
      → ∀ node ∈ bound.nodes, node.id ≤ workbench.made)
    (result : (workbench.entry index act).result? = some value)
    (twice : (value.nodes.map Instance.id).Duplicate id)
    : id ≤ workbench.made := by
  by_contra newer
  obtain ⟨new, _⟩ := result?_madeAfresh older result
  obtain ⟨_, numbered⟩ := workbench.products_step index act
  have distinct : ((value.nodes.map Instance.id).filter (workbench.made < ·)).Nodup := by
    rw [List.filter_map, Function.comp_def, new, numbered]
    exact List.nodup_range'
  have once := List.nodup_iff_count_le_one.mp distinct id
  rw [List.count_filter (by simpa using newer)] at once
  have twice := List.duplicate_iff_two_le_count.mp twice
  omega

-----------------------------------------------------------------------------------------
-- What exists along a run
-----------------------------------------------------------------------------------------

/-- A workbench that is opened when the host has objects of its own, with numbers up to `own`. -/
def opened (recipes : List Recipe) (own : Nat) : Workbench :=
  { start recipes with made := own }

/-- A workbench that has just been opened has no bindings. -/
theorem bindingOf?_opened (recipes : List Recipe) (own index : Nat) (key : TypeKey)
    : (opened recipes own).bindingOf? index key = none :=
  bindingOf?_start recipes index key

/-- By the end of the records the object exists: it is one of the host's own, or an act has made it.
-/
def Exists (own : Nat) (log : List Entry) (node : Instance) : Prop :=
  node.id ≤ own ∨ ∃ entry ∈ log, entry.Makes node

/-- Hosts bind what exists: their own objects and those that acts have made, in whatever way they
are put together.
-/
def BindsWhatExists (own : Nat) (log : List Entry) : Prop :=
  ∀ earlier entry value,
    earlier ++ [entry] <+: log
    → entry.act = .bind value
    → ∀ node ∈ value.nodes, Exists own earlier node

/-- The count of instances tells what exists, and nothing is held or has been answered but that. -/
structure Counts (own : Nat) (workbench : Workbench) (log : List Entry) : Prop where
  count : ∀ node, Exists own log node ↔ node.id ≤ workbench.made
  held
    : ∀ index key bound,
        workbench.bindingOf? index key = some bound
        → ∀ node ∈ bound.nodes, node.id ≤ workbench.made
  answered
    : ∀ entry ∈ log,
        ∀ value,
          entry.result? = some value → ∀ node ∈ value.nodes, node.id ≤ workbench.made

/-- Nothing has been bound yet. -/
theorem bindsWhatExists_nil : BindsWhatExists own [] := by
  rintro earlier entry value before
  simp at before

/-- One more entry binds what exists if all entries before did and its own nodes existed by then, by
the prefixes of a list with one more entry.
-/
theorem bindsWhatExists_append_singleton {entry : Entry}
    : BindsWhatExists own (log ++ [entry])
      ↔ BindsWhatExists own log
        ∧ ∀ value, entry.act = .bind value → ∀ node ∈ value.nodes, Exists own log node := by
  constructor
  · intro exist
    refine ⟨?_, fun value handed => exist log entry value (List.prefix_refl _) handed⟩
    intro earlier other value before
    exact exist earlier other value (before.trans (List.prefix_append _ _))
  · rintro ⟨exist, here⟩ earlier other value before
    rcases List.prefix_concat_iff.mp before with same | before
    · obtain ⟨rfl, rfl⟩ := List.append_singleton_inj.mp same
      exact here value
    · exact exist earlier other value before

/-- With one more entry, what exists is what existed and what the entry makes. -/
theorem exists_append_singleton {entry : Entry} {node : Instance}
    : Exists own (log ++ [entry]) node ↔ Exists own log node ∨ entry.Makes node := by
  simp [Exists, or_assoc, or_and_right, exists_or]

/-- What an act binds is a new instance without parts, or what the host has handed over, by the cases
of the act.
-/
theorem bind_of_bound? {value : Instance}
    (bound : (workbench.entry index act).bound? = some value)
    : act = .bind value
      ∨ ∃ key label, value = .mk (workbench.made + 1) key label []
          ∧ (workbench.step index act).1.made = workbench.made + 1 := by
  by_cases resolves : act.Resolves
  · simp [bound?_of_resolves index resolves] at bound
  · cases there : workbench.container? index with
    | none => simp [entry, step, there, Entry.bound?] at bound
    | some container =>
        cases act with
        | bindNew key label =>
            refine .inr ⟨key, label, ?_, by simp [step, there, bindIn, setBindings]⟩
            simpa [entry, step, there, bindIn, Entry.bound?, eq_comm] using bound
        | bind handed =>
            obtain rfl : handed = value := by
              simpa [entry, step, there, bindIn, Entry.bound?] using bound
            exact .inl rfl
        | resolve key | resolveTyped key => exact absurd trivial resolves
        | setUp | reset => simp [entry, step, there, Entry.bound?] at bound

/-- A step keeps the count. An instance that exists behind the step was there before or is one of the
step's products; a binding is one that was there, one that was handed over, or new.
-/
theorem Counts.step (counts : Counts own workbench log)
    (exist : ∀ value, act = .bind value → ∀ node ∈ value.nodes, Exists own log node)
    : Counts own (workbench.step index act).1 (log ++ [workbench.entry index act]) := by
  have more : workbench.made ≤ (workbench.step index act).1.made := by
    rw [(workbench.products_step index act).1]
    exact Nat.le_add_right _ _
  constructor
  · intro node
    rw [exists_append_singleton, counts.count, makes_iff]
    omega
  · intro other key bound there node member
    rcases bindingOf?_step_iff.mp there with binds | ⟨before, _⟩
    · rcases bind_of_bound? binds.bound with handed | ⟨type, label, rfl, made⟩
      · exact ((counts.count node).mp (exist bound handed node member)).trans more
      · obtain rfl : node = .mk (workbench.made + 1) type label [] := by
          simpa [nodes, nodesEach] using member
        exact made.ge
    · exact (counts.held other key bound before node member).trans more
  · intro entry among value result node member
    rcases List.mem_append.mp among with earlier | last
    · exact (counts.answered entry earlier value result node member).trans more
    · obtain rfl := List.mem_singleton.mp last
      exact le_made_of_result? (counts.held index) result member

/-- A whole run keeps the count, by induction on what the host does. -/
theorem counts_run (recipes : List Recipe) (own : Nat) (acts : List (Nat × Act))
    (exist : BindsWhatExists own ((opened recipes own).log acts))
    : Counts own ((opened recipes own).run acts).1 ((opened recipes own).log acts) := by
  induction acts using List.reverseRecOn with
  | nil =>
      constructor
      · simp [Exists, log, run, opened]
      · intro index key bound there
        simp [run, bindingOf?_opened] at there
      · simp [log]
  | append_singleton acts act ih =>
      rw [log_append_singleton] at exist ⊢
      rw [run_append_singleton]
      obtain ⟨earlier, here⟩ := bindsWhatExists_append_singleton.mp exist
      exact (ih earlier).step here

/-- A split of the records is a split of the acts. -/
theorem exists_acts_of_log {acts : List (Nat × Act)} {earlier later : List Entry} {entry : Entry}
    (split : workbench.log acts = earlier ++ entry :: later)
    : ∃ before index act,
        earlier = workbench.log before ∧ entry = (workbench.run before).1.entry index act := by
  induction acts generalizing workbench earlier with
  | nil => simp [log] at split
  | cons first rest ih =>
      cases earlier with
      | nil => exact ⟨[], first.1, first.2, rfl, (List.cons.inj split).1.symm⟩
      | cons head earlier =>
          obtain ⟨same, split⟩ := List.cons.inj split
          obtain ⟨before, index, act, rfl, rfl⟩ := ih split
          exact ⟨first :: before, index, act, by rw [← same]; rfl, rfl⟩

/-- Nothing is kept for a second use, over whole histories. Whatever hosts do with containers over
the recipes, as long as they bind only what exists: what an act makes is different from all that
existed before it, and the instances it makes are different from each other. In what a resolution
answers, all that it made occurs exactly once. And an object that occurs there twice, or has
occurred in an earlier answer, is or hangs below what the host has bound in this very container and
not taken back since.
-/
theorem run_shares_only_bound {recipes : List Recipe} {own : Nat} {acts : List (Nat × Act)}
    {earlier later : List Entry} {entry : Entry}
    (exist : BindsWhatExists own ((opened recipes own).log acts))
    (split : (opened recipes own).log acts = earlier ++ entry :: later)
    : (∀ product ∈ entry.products, ∀ old, Exists own earlier old → product.id ≠ old.id)
      ∧ (entry.products.map Instance.id).Nodup
      ∧ ∀ value,
          entry.result? = some value
          → value.nodes.filter (fun node => entry.Makes node) = entry.products
            ∧ ∀ node ∈ value.nodes,
                List.Duplicate node.id (value.nodes.map Instance.id)
                  ∨ (∃ other ∈ earlier,
                      ∃ answer,
                        other.result? = some answer ∧ node.id ∈ answer.nodes.map Instance.id)
                → ∃ key bound,
                    LatestBind earlier entry.index key bound ∧ node ∈ bound.nodes := by
  obtain ⟨before, index, act, rfl, rfl⟩ := exists_acts_of_log split
  have counts
      : Counts own ((opened recipes own).run before).1 ((opened recipes own).log before) := by
    refine counts_run recipes own before fun earlier entry value inside => ?_
    exact exist earlier entry value (inside.trans ⟨_, split.symm⟩)
  obtain ⟨_, numbered⟩ := ((opened recipes own).run before).1.products_step index act
  refine ⟨?_, by rw [numbered]; exact List.nodup_range', ?_⟩
  · intro product made old existed same
    have new := (makes_iff product).mp (List.mem_map_of_mem made)
    have older := (counts.count old).mp existed
    omega
  · intro value result
    obtain ⟨new, old⟩ := result?_madeAfresh (counts.held index) result
    constructor
    · rw [← new]
      refine List.filter_congr fun node member => ?_
      rw [decide_eq_decide, makes_iff]
      exact and_iff_left (le_made_of_result? (counts.held index) result member)
    · rintro node member shared
      have older : node.id ≤ ((opened recipes own).run before).1.made := by
        rcases shared with twice | ⟨other, among, answer, answered, occurs⟩
        · exact le_made_of_duplicate (counts.held index) result twice
        · obtain ⟨same, inside, equal⟩ := List.mem_map.mp occurs
          rw [← equal]
          exact counts.answered other among answer answered same inside
      obtain ⟨key, bound, there, inside⟩ := old node member older
      have latest := (bindingOf?_run_iff (bindingOf?_opened recipes own) before).mp there
      exact ⟨key, bound, latest, inside⟩

/-- A host that binds a context of its own, has a view resolved, and binds the client of its left
side.
-/
def sharingActs : List (Nat × Act) := [
  (0, .bind (.mk 1 ⟨"Context"⟩ none [])),
  (0, .resolveTyped ⟨"View"⟩),
  (0, .bind (.mk 2 ⟨"Client"⟩ none []))
]

/-- The next view has new sides, and they hold the very client that was bound. -/
def sharingView : Instance :=
  .mk 9 ⟨"View"⟩ none [
    .mk 7 ⟨"Left"⟩ none [.mk 2 ⟨"Client"⟩ none []],
    .mk 8 ⟨"Right"⟩ none [.mk 2 ⟨"Client"⟩ none []],
    .mk 1 ⟨"Context"⟩ none []
  ]

/-- Witness: a view shares the client that was bound before it was resolved, and all else in it is new.
-/
theorem run_shares_only_bound_client
    : ∃ entry,
        (opened Container.diamond.recipes 1).log (sharingActs ++ [(0, .resolveTyped ⟨"View"⟩)])
          = (opened Container.diamond.recipes 1).log sharingActs ++ [entry]
        ∧ entry.result? = some sharingView
        ∧ sharingView.nodes.filter (fun node => entry.Makes node) = entry.products
        ∧ ∃ key bound,
            LatestBind ((opened Container.diamond.recipes 1).log sharingActs) 0 key bound
            ∧ .mk 2 ⟨"Client"⟩ none [] ∈ bound.nodes := by
  have split := (opened Container.diamond.recipes 1).log_append_singleton sharingActs 0
    (.resolveTyped ⟨"View"⟩)
  refine ⟨_, split, rfl, ?_⟩
  have exist
      : BindsWhatExists 1
          ((opened Container.diamond.recipes 1).log
            (sharingActs ++ [(0, Act.resolveTyped ⟨"View"⟩)])) := by
    have inOrder
        : sharingActs
          = [] ++ [(0, Act.bind (.mk 1 ⟨"Context"⟩ none []))] ++ [(0, Act.resolveTyped ⟨"View"⟩)]
              ++ [(0, Act.bind (.mk 2 ⟨"Client"⟩ none []))] :=
      rfl
    simp only [inOrder, log_append_singleton, bindsWhatExists_append_singleton]
    refine ⟨⟨⟨⟨bindsWhatExists_nil, ?_⟩, by simp [entry]⟩, ?_⟩, by simp [entry]⟩
    · intro value handed node member
      obtain rfl := Act.bind.inj handed
      obtain rfl : node = .mk 1 ⟨"Context"⟩ none [] := by simpa [nodes, nodesEach] using member
      exact .inl (Nat.le_refl 1)
    · intro value handed node member
      obtain rfl := Act.bind.inj handed
      obtain rfl : node = .mk 2 ⟨"Client"⟩ none [] := by simpa [nodes, nodesEach] using member
      exact .inr ⟨_, List.mem_append_right _ (List.mem_singleton_self _), by decide⟩
  obtain ⟨_, _, answered⟩ := run_shares_only_bound exist split
  obtain ⟨once, shared⟩ := answered sharingView rfl
  exact ⟨once, shared _ (by simp [sharingView, nodes, nodesEach]) (.inl (by decide))⟩

end Workbench

end Wiring
