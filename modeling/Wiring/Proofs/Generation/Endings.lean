import Wiring.Proofs.Blueprint.CycleReport
import Wiring.Proofs.Emission.Agreement
import Wiring.Proofs.Generation.Calls

/-! How a generation comes to its end, whatever rounds were asked for before: it fails over what is
still open, over a cycle that is denied or over its settings, in this order and without a write; or
else it writes the component, and nothing else.
-/

namespace Wiring

-----------------------------------------------------------------------------------------
-- What injectables require of each other
-----------------------------------------------------------------------------------------

namespace Injectable

/-- Some target requires itself, at once or through others. -/
def Cyclic (injectables : List Injectable) : Prop :=
  ∃ type, Relation.TransGen (Requires injectables) type type

/-- A path that ends where it began, each type on it requiring the next, and no other type twice. -/
structure IsCycle (injectables : List Injectable) (path : List TypeName) : Prop where
  chain : path.IsChain (Requires injectables)
  closed : path.head? = path.getLast?
  long : 2 ≤ path.length
  distinct : path.dropLast.Nodup

/-- No cycle is found exactly if there is none. -/
theorem firstCycle?_eq_none_iff {injectables : List Injectable}
    : (Blueprint.ofInjectables injectables).firstCycle? = none ↔ ¬ Cyclic injectables := by
  rw [Blueprint.firstCycle?_eq_none_iff, Blueprint.Acyclic, Blueprint.needs_ofInjectables, Cyclic,
    not_exists]

/-- What is found is a cycle of the descriptors, by the same for their blueprint. -/
theorem isCycle_of_firstCycle? {injectables : List Injectable} {path : List TypeName}
    (reported : (Blueprint.ofInjectables injectables).firstCycle? = some path)
    : IsCycle injectables path := by
  have isCycle := Blueprint.isCycle_of_firstCycle? reported
  exact ⟨Blueprint.needs_ofInjectables injectables ▸ isCycle.chain, isCycle.closed, isCycle.long,
    isCycle.distinct⟩

end Injectable

/-- Whether a summary is right about a number of rounds, the injectables they have recorded, and the
component of these.
-/
structure Summary.Sums (summary : Summary) (rounds : Nat) (injectables : List Injectable)
    (component : Artifact)
    : Prop where
  counted : summary.rounds = rounds
  number : summary.injectables = injectables.length
  named : summary.component = component.qualifiedName
  ascending : summary.leftToHost.Pairwise (· < ·)
  /-- What is left to the host is required by an injectable and is the target of none. -/
  left
    : ∀ type,
        type ∈ summary.leftToHost
        ↔ (∃ injectable ∈ injectables, type ∈ injectable.parameters)
          ∧ ∀ injectable ∈ injectables, injectable.target ≠ type
  acyclic : summary.cycle = none ↔ ¬ Injectable.Cyclic injectables
  cycle : ∀ path, summary.cycle = some path → Injectable.IsCycle injectables path

/-- A generation sums up what it has recorded. -/
theorem Generation.sums_summary {generation : Generation}
    (distinct : (generation.injectables.map Injectable.target).Nodup) (component : Artifact)
    : (generation.summary component).Sums generation.rounds generation.injectables component where
  counted := rfl
  number := rfl
  named := rfl
  ascending := Blueprint.pairwise_leftToHost _
  left type := by
    have left : type ∈ (generation.summary component).leftToHost ↔ _ :=
      Blueprint.mem_leftToHost_ofInjectables
    simpa only [Injectable.mem_collect_of_nodup distinct] using left
  acyclic := Injectable.firstCycle?_eq_none_iff
  cycle _ := Injectable.isCycle_of_firstCycle?

-----------------------------------------------------------------------------------------
-- The end of a generation
-----------------------------------------------------------------------------------------

/-- A runtime path that cannot be read is at fault. -/
theorem Emission.component_of_unread_path {settings : Settings}
    (unread : Source.readPath? settings.runtimePath = none) (injectables : List Injectable)
    : component settings injectables = .error (.settings (.runtimePath settings.runtimePath)) := by
  simp only [component, unread]

/-- Then a name that cannot be read is. -/
theorem Emission.component_of_unread_name {settings : Settings} {runtime : String}
    (path : Source.readPath? settings.runtimePath = some runtime)
    (unread : Source.readIdentifier? settings.componentName = none) (injectables : List Injectable)
    : component settings injectables
      = .error (.settings (.componentName settings.componentName)) := by
  simp only [component, path, unread]

namespace Generation

variable {generation : Generation}

/-- Whatever the store, the end fails in this way and leaves the store as it is. -/
def EndsWithout (generation : Generation) (failure : Failure) : Prop :=
  ∀ (σ : Type) (write : Writer σ) (store : σ),
    (generation.finish write store).result = .error failure
    ∧ (generation.finish write store).state = store

/-- Whatever the store, the end writes this one artifact, and answers the summary if the store takes it
or fails as the store does.
-/
def EndsWith (generation : Generation) (artifact : Artifact) (summary : Summary) : Prop :=
  ∀ (σ : Type) (write : Writer σ) (store : σ),
    (generation.finish write store).result = (write store artifact).result.map (fun _ => summary)
    ∧ (generation.finish write store).state = (write store artifact).state

/-- An obstacle ends a generation before anything is written. -/
theorem endsWithout_of_obstacle {failure : Failure}
    (obstacle : generation.obstacle? = some failure)
    : generation.EndsWithout failure := by
  intro σ write store
  rw [finish, obstacle]
  exact ⟨rfl, rfl⟩

/-- So does a component that cannot be made. -/
theorem endsWithout_of_component {failure : Failure} (free : generation.obstacle? = none)
    (failed : Emission.component generation.settings generation.injectables = .error failure)
    : generation.EndsWithout failure := by
  intro σ write store
  rw [finish, free]
  simp only [complete, failed]
  exact ⟨rfl, rfl⟩

/-- A component that is made is all that is left to be written. -/
theorem endsWith_component {component : Artifact} (free : generation.obstacle? = none)
    (made : Emission.component generation.settings generation.injectables = .ok component)
    : generation.EndsWith component (generation.summary component) := by
  intro σ write store
  rw [finish, free]
  simp only [complete, made]
  rcases write store component with ⟨state, events, answer⟩
  cases answer with
  | error failure => exact ⟨rfl, rfl⟩
  | ok => exact ⟨rfl, rfl⟩

/-- Nothing is open, and if cycles are denied, there is none. -/
structure Free (generation : Generation) : Prop where
  settled : generation.deferred = []
  allowed : generation.settings.denyCycles = true → ¬ Injectable.Cyclic generation.injectables

/-- A free generation has no obstacle: nothing is deferred, and no cycle is denied. -/
theorem Free.obstacle?_eq_none (free : generation.Free) : generation.obstacle? = none := by
  rw [obstacle?_of_settled free.settled]
  split
  · rename_i denied
    rw [blueprint, Injectable.firstCycle?_eq_none_iff.mpr (free.allowed denied)]
    rfl
  · rfl

/-- A cycle that is denied is reported. -/
theorem exists_endsWithout_cycle (settled : generation.deferred = [])
    (denied : generation.settings.denyCycles = true)
    (cyclic : Injectable.Cyclic generation.injectables)
    : ∃ path,
        Injectable.IsCycle generation.injectables path
        ∧ generation.EndsWithout (.cycle path) := by
  have reported : generation.blueprint.firstCycle? ≠ none := fun clear =>
    Injectable.firstCycle?_eq_none_iff.mp clear cyclic
  obtain ⟨path, found⟩ := Option.ne_none_iff_exists'.mp reported
  refine ⟨path, Injectable.isCycle_of_firstCycle? found, endsWithout_of_obstacle ?_⟩
  rw [obstacle?_of_settled settled, if_pos denied, found]
  rfl

end Generation

-----------------------------------------------------------------------------------------
-- Behind any calls
-----------------------------------------------------------------------------------------

/-- What a round leaves stands in the order of its candidates. -/
theorem Generation.RoundEnds.deferred_sublist {generation after : Generation}
    {candidates : List Candidate} {round : Round} {factories : List Artifact}
    (ends : RoundEnds generation candidates (.ok round) after factories)
    : round.deferred.Sublist (candidates.map Candidate.marked) := by
  cases ends with
  | @done intake _ takes _ =>
      rw [takes.deferred]
      exact (List.filter_sublist.trans List.filter_sublist).map Candidate.marked

namespace History

/-- Calls keep the settings, and each counts as a round, by induction on them. -/
theorem foldl_next_counts (history : History) (calls : List RoundCall)
    : (calls.foldl next history).generation.settings = history.generation.settings
      ∧ (calls.foldl next history).generation.rounds
        = history.generation.rounds + calls.length := by
  induction calls generalizing history with
  | nil => exact ⟨rfl, rfl⟩
  | cons call rest ih =>
      have ends := history.generation.roundEnds_taken call.write call.candidates call.store
      obtain ⟨settings, rounds⟩ := ih (history.next call)
      rw [List.foldl_cons, settings, rounds, List.length_cons]
      refine ⟨ends.settings_eq, ?_⟩
      rw [show (history.next call).generation.rounds = history.generation.rounds + 1 from
        ends.rounds_eq]
      omega

/-- What is open was left by a call that succeeded, in the order of its candidates, by induction on the
calls from the last one on.
-/
theorem exists_left (settings : Settings) (calls : List RoundCall)
    (open_ : (ofCalls settings calls).generation.deferred ≠ [])
    : ∃ (earlier : List RoundCall) (call : RoundCall) (later : List RoundCall) (round : Round),
        calls = earlier ++ call :: later
        ∧ (call.reply (ofCalls settings earlier).generation).result = .ok round
        ∧ round.deferred = (ofCalls settings calls).generation.deferred
        ∧ round.deferred.Sublist (call.candidates.map Candidate.marked) := by
  induction calls using List.reverseRecOn with
  | nil => exact absurd rfl open_
  | append_singleton earlier call ih =>
      let before := (ofCalls settings earlier).generation
      have ends := before.roundEnds_taken call.write call.candidates call.store
      have deferred
          : (ofCalls settings (earlier ++ [call])).generation.deferred
            = ((call.reply before).result.toOption.map Round.deferred).getD before.deferred := by
        rw [ofCalls_append]
        exact ends.deferred_eq
      cases answer : (call.reply before).result with
      | error failure =>
          have same
              : (ofCalls settings (earlier ++ [call])).generation.deferred = before.deferred := by
            rw [deferred, answer]
            rfl
          rw [same] at open_ ⊢
          obtain ⟨first, last, later, round, rfl, done, left, order⟩ := ih open_
          exact ⟨first, last, later ++ [call], round, by simp, done, left, order⟩
      | ok round =>
          have answered : (before.round call.write call.candidates call.store).result = .ok round :=
            answer
          rw [answered] at ends
          refine ⟨earlier, call, [], round, rfl, answer, ?_, ends.deferred_sublist⟩
          rw [deferred, answer]
          rfl

/-- Whatever was called before, the end of a generation is all or nothing, with every store. It fails
over what is still open, listed in the order of the candidates of the call that left it; or else over a
cycle of what is recorded, if cycles are denied; or else over the path of the library, and then over
the name of the component, if these cannot be read. None of this writes anything. In all other cases
one artifact is written, the component of all that is recorded; and if the store takes it, the summary
is right about the rounds and about the needs of just what is recorded. The end looks at what is
deferred, then at cycles, then at the settings, and writes once.
-/
theorem ofCalls_ends_all_or_nothing {settings : Settings} {calls : List RoundCall}
    {generation : Generation} (reached : (ofCalls settings calls).generation = generation)
    (spelled : ∀ injectable ∈ generation.injectables, Emission.AllSpelled injectable)
    (bare : ∀ injectable ∈ generation.injectables, Emission.IsBare injectable.target.name)
    : (generation.deferred ≠ []
        → (∃ earlier call later round,
            calls = earlier ++ call :: later
            ∧ (call.reply (ofCalls settings earlier).generation).result = .ok round
            ∧ round.deferred = generation.deferred
            ∧ round.deferred.Sublist (call.candidates.map Candidate.marked))
          ∧ generation.EndsWithout
              (.unresolved calls.length
                (generation.deferred.map fun marked => (marked.text, marked.location))))
      ∧ (generation.deferred = []
        → settings.denyCycles = true
        → Injectable.Cyclic generation.injectables
        → ∃ path,
            Injectable.IsCycle generation.injectables path
            ∧ generation.EndsWithout (.cycle path))
      ∧ (generation.Free
        → Source.readPath? settings.runtimePath = none
        → generation.EndsWithout (.settings (.runtimePath settings.runtimePath)))
      ∧ (∀ runtime,
        generation.Free
        → Source.readPath? settings.runtimePath = some runtime
        → Source.readIdentifier? settings.componentName = none
        → generation.EndsWithout (.settings (.componentName settings.componentName)))
      ∧ (∀ runtime name,
        generation.Free
        → Source.readPath? settings.runtimePath = some runtime
        → Source.readIdentifier? settings.componentName = some name
        → ∃ component summary,
            Emission.component settings generation.injectables = .ok component
            ∧ (Emission.Table.ofInjectables generation.injectables).Spells runtime name component
            ∧ generation.EndsWith component summary
            ∧ summary.Sums calls.length generation.injectables component) := by
  obtain ⟨same, rounds⟩
      : generation.settings = settings ∧ generation.rounds = calls.length := by
    obtain ⟨same, rounds⟩ := foldl_next_counts { generation := { settings } } calls
    rw [← reached]
    exact ⟨same, rounds.trans (Nat.zero_add _)⟩
  have sound : (ofCalls settings calls).Sound := (Sound.start settings).foldl_next calls
  have ascending := sound.made.ascending
  have leftBy := exists_left settings calls
  rw [reached] at ascending leftBy
  subst same
  refine ⟨?_, Generation.exists_endsWithout_cycle, ?_, ?_, ?_⟩
  · intro open_
    refine ⟨leftBy open_, ?_⟩
    rw [← rounds]
    exact Generation.endsWithout_of_obstacle (Generation.obstacle?_of_deferred open_)
  · intro free unread
    exact Generation.endsWithout_of_component free.obstacle?_eq_none
      (Emission.component_of_unread_path unread _)
  · intro runtime free path unread
    exact Generation.endsWithout_of_component free.obstacle?_eq_none
      (Emission.component_of_unread_name path unread _)
  · intro runtime name free path named
    obtain ⟨component, made, spells⟩ := Emission.exists_component_spells spelled bare path named
    rw [Emission.inRowOrder_of_ascending ascending] at spells
    refine ⟨component, generation.summary component, made, spells,
      Generation.endsWith_component free.obstacle?_eq_none made, ?_⟩
    rw [← rounds]
    exact Generation.sums_summary (Ascending.nodup_map ascending) component

/-- A client that was left at first and then recorded. -/
private def clientRecorded : Generation := {
  settings := {}
  injectables := [⟨⟨"crate::m", "Client"⟩, "new", [socket], ⟨⟨"src/m.rs"⟩, 3⟩⟩]
  processed := ["src/m.rs:3#Client::new"]
  rounds := 2
}

/-- The client and the socket are spelled in identifiers. -/
private theorem allSpelled_clientRecorded
    : ∀ injectable ∈ clientRecorded.injectables, Emission.AllSpelled injectable := by
  have spelled
      : ∀ name ∈ ["Client", "Socket"],
          (∀ word ∈ Emission.wordsOfPath "crate::m", Source.Identifier.isToken word = true)
          ∧ Source.Identifier.isToken name = true := by
    decide +kernel
  have types (name : String) (among : name ∈ ["Client", "Socket"])
      : Emission.IsSpelled ⟨"crate::m", name⟩ :=
    ⟨(spelled name among).1, (spelled name among).2⟩
  refine List.forall_mem_singleton.mpr ⟨types "Client" (by simp), by decide, ?_⟩
  exact List.forall_mem_singleton.mpr (types "Socket" (by simp))

/-- Before the client is recorded the end fails over it, and then it writes the component. -/
theorem ofCalls_ends_all_or_nothing_clientCalls
    : (ofCalls {} [clientCall none]).generation.EndsWithout
          (.unresolved 1 [("Client::new", ⟨⟨"src/m.rs"⟩, 3⟩)])
      ∧ ∃ component summary,
          (ofCalls {} [clientCall none, clientCall (some [socket])]).generation.EndsWith component
            summary
          ∧ summary.rounds = 2
          ∧ summary.injectables = 1
          ∧ socket ∈ summary.leftToHost := by
  have left
      : (ofCalls {} [clientCall none]).generation
        = { settings := {}, deferred := [(clientCandidate none).marked], rounds := 1 } := by
    decide +kernel
  have recorded
      : (ofCalls {} [clientCall none, clientCall (some [socket])]).generation = clientRecorded := by
    decide +kernel
  have path := Settings.readPath?_default
  have name := Settings.readIdentifier?_default
  obtain ⟨fails, _⟩ := ofCalls_ends_all_or_nothing left (by simp) (by simp)
  obtain ⟨_, _, _, _, ends⟩ :=
    ofCalls_ends_all_or_nothing recorded allSpelled_clientRecorded (by decide)
  have free : clientRecorded.Free := ⟨rfl, fun denied => nomatch denied⟩
  obtain ⟨component, summary, _, _, writes, sums⟩ := ends _ _ free path name
  rw [left, recorded]
  refine ⟨(fails (by simp)).2, component, summary, writes, sums.counted, sums.number, ?_⟩
  exact (sums.left socket).mpr (by decide)

end History

end Wiring
