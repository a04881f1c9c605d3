import Wiring.Proofs.Generation.Calls

/-! How many rounds there are. A round that another one follows has settled a declaration for good and
left one open, and no later round looks at what its factories bring in. So there are never more rounds
than declarations, and allowing more changes nothing.
-/

namespace Wiring

/-- A step may be followed by whatever does the same after it. -/
theorem Reply.andThen_congr {σ α β : Type} {reply : Reply σ α} {next other : σ → α → Reply σ β}
    (same : ∀ value, reply.result = .ok value → next reply.state value = other reply.state value)
    : reply.andThen next = reply.andThen other := by
  obtain ⟨state, events, answer⟩ := reply
  cases answer with
  | error failure => rfl
  | ok value => exact congrArg (telling events) (same value rfl)

-----------------------------------------------------------------------------------------
-- Declarations that are settled
-----------------------------------------------------------------------------------------

namespace Turn.Follows

variable {turn : Turn} {generation : Generation} {declarations more : List Marked}

/-- Where keys tell the declarations apart, a round settles as many as it records. -/
theorem length_unsettled (follows : turn.Follows generation)
    (marked : turn.index.marked = declarations ++ more)
    (objected : ∀ later ∈ more, later.objection.isSome = true)
    (distinct : (declarations.map Marked.key).Nodup)
    : (generation.unsettled declarations).length
      = turn.factories.length + ((turn.next generation).unsettled declarations).length := by
  have recorded := (follows.forall₂_records marked objected).length_eq
  have made := follows.made.length_eq
  have split :=
    List.length_eq_length_filter_add (l := generation.unsettled declarations)
      fun marked => (turn.index.candidate marked).injectable?.isSome
  rw [follows.unsettled_next marked objected distinct, follows.deferred_eq marked objected]
  simp only [Option.not_isSome] at split
  omega

/-- A round that leaves something open and makes something brings the rounds nearer to their end. -/
theorem settles (follows : turn.Follows generation)
    (marked : turn.index.marked = declarations ++ more)
    (objected : ∀ later ∈ more, later.objection.isSome = true)
    (distinct : (declarations.map Marked.key).Nodup) (left : turn.intake.deferred ≠ [])
    (made : turn.factories ≠ [])
    : 0 < ((turn.next generation).unsettled declarations).length
      ∧ ((turn.next generation).unsettled declarations).length
        < (generation.unsettled declarations).length := by
  have counted := follows.length_unsettled marked objected distinct
  have some := List.length_pos_iff.mpr made
  refine ⟨?_, by omega⟩
  rw [follows.unsettled_next marked objected distinct]
  exact List.length_pos_iff.mpr left

end Turn.Follows

/-- The first round looks at all declarations. -/
theorem Generation.unsettled_start (settings : Settings) (declarations : List Marked)
    : ({ settings } : Generation).unsettled declarations = declarations := by
  simp [unsettled]

-----------------------------------------------------------------------------------------
-- The number of rounds
-----------------------------------------------------------------------------------------

namespace Workplace

variable {σ : Type} {write : Writer σ} {settings : Settings} {start index : Index}
  {turns : List Turn} {generation : Generation}

/-- Each round is counted. -/
theorem rounds_round (write : Writer σ) (workplace : Workplace σ)
    : (round write workplace).state.generation.rounds = workplace.generation.rounds + 1 :=
  (Generation.roundEnds_taken write workplace.index.candidates workplace.generation
    workplace.store).rounds_eq

/-- Either the first round is the last one, however many may follow; or it leaves something and makes
something, and the others begin where its factories have been taken back, by the answer of the first
round and by what it leaves and makes.
-/
theorem rounds_cases (write : Writer σ) (generation : Generation) (index : Index) (store : σ)
    : (∀ more,
        rounds write more ⟨generation, index, store⟩ = rounds write 0 ⟨generation, index, store⟩)
      ∨ ∃ turn : Turn, ∃ events storeLeft,
          turn.index = index
          ∧ turn.Follows generation
          ∧ turn.intake.deferred ≠ []
          ∧ turn.factories ≠ []
          ∧ ∀ more,
              rounds write (more + 1) ⟨generation, index, store⟩
              = ((takeBack turn.factories ⟨turn.next generation, index, storeLeft⟩).andThen
                  fun workplace _ => rounds write more workplace).telling events := by
  rcases reached : round write ⟨generation, index, store⟩ with ⟨state, events, answer⟩
  have last : rounds write 0 ⟨generation, index, store⟩ = ⟨state, events, answer.map fun _ => ()⟩ := by
    rw [rounds, reached]
    rfl
  have following (more : Nat)
      : rounds write (more + 1) ⟨generation, index, store⟩
        = (Reply.mk state events answer).andThen fun workplace round =>
            if round.deferred.isEmpty || !round.progressed then .done workplace ()
            else
              (workplace.takeBack round.emitted).andThen fun workplace _ =>
                rounds write more workplace := by
    rw [rounds, reached]
  cases answer with
  | error failure =>
      left
      intro more
      cases more with
      | zero => rfl
      | succ more =>
          rw [following, last]
          rfl
  | ok made =>
      by_cases stops : (made.deferred.isEmpty || !made.progressed) = true
      · left
        intro more
        cases more with
        | zero => rfl
        | succ more =>
            rw [following, last, Reply.andThen, if_pos stops, Reply.telling, Reply.done,
              List.append_nil]
            rfl
      · right
        have done : (round write ⟨generation, index, store⟩).result = .ok made := by rw [reached]
        obtain ⟨turn, same, follows, rfl, next, _⟩ := Generation.round_eq_ok done
        obtain ⟨open_, some⟩ : turn.intake.deferred ≠ [] ∧ turn.factories ≠ [] := by
          simpa [Round.progressed] using stops
        have left : state = ⟨turn.next generation, index, state.store⟩ := by
          have state : (round write ⟨generation, index, store⟩).state = state := by rw [reached]
          rw [← state, ← next]
          rfl
        refine ⟨turn, events, state.store, same, follows, open_, some, fun more => ?_⟩
        rw [following, Reply.andThen, if_neg stops, ← left]

/-- However they end, rounds are counted: there is one at least, and there are no more than may be, nor,
where keys tell the declarations apart, than there are open declarations. By induction on the
number that may follow: each round that goes on settles a declaration.
-/
theorem rounds_rounds (write : Writer σ) (course : Course settings start turns index generation)
    (distinct : (start.marked.map Marked.key).Nodup) (more : Nat) (store : σ)
    : let begun := (rounds write more ⟨generation, index, store⟩).state.generation.rounds
      generation.rounds < begun
        ∧ begun ≤ generation.rounds + (more + 1)
        ∧ begun ≤ generation.rounds + max 1 (generation.unsettled start.marked).length := by
  dsimp only
  have single (store : σ)
      : (rounds write 0 ⟨generation, index, store⟩).state.generation.rounds
        = generation.rounds + 1 :=
    rounds_round write ⟨generation, index, store⟩
  induction more generalizing turns index generation store with
  | zero =>
      rw [single]
      omega
  | succ more ih =>
      rcases rounds_cases write generation index store with
        stops | ⟨turn, events, left, rfl, follows, open_, made, goesOn⟩
      · rw [stops, single]
        omega
      · obtain ⟨later, grown, objected⟩ := course.grown.marked
        have nearer := follows.settles grown objected distinct open_ made
        have counted := (turn.next_counted generation).2
        have place
            : (takeBack turn.factories ⟨turn.next generation, turn.index, left⟩).state
              = ⟨turn.next generation, (turn.index.takeEach (turn.factories.map Artifact.source)).state,
                left⟩ :=
          rfl
        rw [goesOn]
        dsimp only [Reply.telling]
        cases back
            : (takeBack turn.factories ⟨turn.next generation, turn.index, left⟩).result with
        | error failure =>
            rw [Reply.state_andThen_of_error back, place]
            dsimp only
            omega
        | ok =>
            have others := ih (course.turn follows back) left fun store => rounds_round write _
            rw [(Reply.andThen_of_ok back).2, place]
            omega

/-- Where at least as many rounds may be as there are open declarations, allowing more changes nothing.
By induction on the number that may follow the first one.
-/
theorem rounds_add (course : Course settings start turns index generation)
    (distinct : (start.marked.map Marked.key).Nodup) {more : Nat}
    (enough : (generation.unsettled start.marked).length ≤ more + 1) (extra : Nat) (store : σ)
    : rounds write (more + extra) ⟨generation, index, store⟩
      = rounds write more ⟨generation, index, store⟩ := by
  induction more generalizing turns index generation store with
  | zero =>
      rcases rounds_cases write generation index store with
        stops | ⟨turn, _, _, rfl, follows, open_, made, _⟩
      · exact stops _
      · -- A round that goes on would have had two declarations to look at.
        obtain ⟨later, grown, objected⟩ := course.grown.marked
        have nearer := follows.settles grown objected distinct open_ made
        omega
  | succ more ih =>
      rcases rounds_cases write generation index store with
        stops | ⟨turn, events, left, rfl, follows, open_, made, goesOn⟩
      · rw [stops, stops (more + 1)]
      · obtain ⟨later, grown, objected⟩ := course.grown.marked
        have nearer := follows.settles grown objected distinct open_ made
        rw [Nat.add_right_comm, goesOn, goesOn]
        refine congrArg (Reply.telling events) (Reply.andThen_congr fun _ back => ?_)
        exact ih (course.turn follows back) (by omega) left

/-- The end of a run begins no round. -/
theorem generation_run (write : Writer σ) (workplace : Workplace σ)
    : (run write workplace).state.generation
      = (rounds write (workplace.generation.settings.maxRounds - 1) workplace).state.generation := by
  rw [run]
  rcases rounds write (workplace.generation.settings.maxRounds - 1) workplace with
    ⟨state, events, answer⟩
  cases answer with
  | error failure => rfl
  | ok => rfl

/-- A run has one round at least, and at most as many as the settings allow and as there are marked
declarations, where keys tell these apart. A summary gives their number, and so does a report of
unresolved declarations. The settings need not put an end to them: where as many rounds may be as there
are declarations, allowing more changes nothing. Every round but the last settles a declaration.
-/
theorem run_rounds_bounded {settings : Settings} {index : Index} {store : MemoryStore}
    (distinct : (index.marked.map Marked.key).Nodup)
    : let reply := run MemoryStore.write ⟨{ settings }, index, store⟩
      let begun := reply.state.generation.rounds
      (1 ≤ begun ∧ begun ≤ max 1 (min settings.maxRounds index.marked.length))
        ∧ (∀ summary, reply.result = .ok summary → summary.rounds = begun)
        ∧ (∀ count declarations,
            reply.result = .error (.unresolved count declarations) → count = begun)
        ∧ ∀ extra,
            rounds MemoryStore.write (index.marked.length - 1 + extra) ⟨{ settings }, index, store⟩
            = rounds MemoryStore.write (index.marked.length - 1) ⟨{ settings }, index, store⟩ := by
  dsimp only
  have beginning : Course settings index [] index { settings } := .start
  have all : (({ settings } : Generation).unsettled index.marked).length = index.marked.length := by
    rw [Generation.unsettled_start]
  refine ⟨?_, ?_, ?_, fun extra => rounds_add beginning distinct (by omega) extra store⟩
  · have counted :=
      rounds_rounds MemoryStore.write beginning distinct (settings.maxRounds - 1) store
    have none : ({ settings } : Generation).rounds = 0 := rfl
    rw [generation_run]
    dsimp only at counted ⊢
    omega
  · intro summary done
    obtain ⟨_, generation, component, _, rfl, _, _, rfl⟩ := run_eq_ok done
    rfl
  · intro count declarations failed
    obtain ⟨further, last, before, course, _, left, _, rfl, _⟩ :=
      run_eq_unresolved MemoryStore.not_refuses failed
    rw [left.generation, (last.next_counted before).2, course.counted.2]

/-- A client that is made of a pool, which no source declares, and a socket. -/
def socketAndStrandedClient : Index := {
  marker := "inject"
  scopes := [⟨"crate::m", []⟩]
  declared := ["crate::m::Client", "crate::m::Socket"]
  modules := ["crate::m", "crate"]
  marked := [
    constructorOf "Client" [⟨"pool", .shared (.single "Pool")⟩] 3,
    constructorOf "Socket" [] 6
  ]
  files := [⟨"src/m.rs"⟩]
}

/-- The descriptor of the socket. -/
private def strandedSocket : Injectable :=
  ⟨⟨"crate::m", "Socket"⟩, "new", [], ⟨⟨"src/m.rs"⟩, 6⟩⟩

/-- The first round records the socket and leaves the client, and the second one only counts itself. -/
private def strandedSocketRecorded (rounds : Nat) : Generation := {
  settings := {}
  injectables := [strandedSocket]
  processed := ["src/m.rs:6#Socket::new"]
  deferred := [constructorOf "Client" [⟨"pool", .shared (.single "Pool")⟩] 3]
  rounds
}

/-- Its factory. -/
private def strandedSocketFactory : Artifact :=
  (Emission.factory? strandedSocket).getD default

/-- The index that the second round finds. -/
private def strandedSocketAndFactory : Index :=
  socketAndStrandedClient.addParsed strandedSocketFactory.source.path
    strandedSocketFactory.source.home
    ((Source.Grammar.items? (Emission.factoryTokens strandedSocket)).getD [])

/-- The index takes the factory in. -/
private theorem add_strandedSocketFactory
    : socketAndStrandedClient.add strandedSocketFactory.source = .ok strandedSocketAndFactory := by
  obtain ⟨factory, made⟩ := Option.isSome_iff_exists.mp
    (show (Emission.factory? strandedSocket).isSome = true by decide +kernel)
  obtain ⟨items, read⟩ := Option.isSome_iff_exists.mp
    (show (Source.Grammar.items? (Emission.factoryTokens strandedSocket)).isSome = true by
      decide +kernel)
  have same : strandedSocketFactory = factory := by
    rw [strandedSocketFactory, made, Option.getD_some]
  rw [strandedSocketAndFactory, same, Index.add_factory _ made read, read, Option.getD_some]

/-- The client is left over after two rounds, since nothing declares its pool. -/
theorem run_socketAndStrandedClient
    : (run MemoryStore.write ⟨{ settings := {} }, socketAndStrandedClient, {}⟩).result
      = .error (.unresolved 2 [("Client::new", ⟨⟨"src/m.rs"⟩, 3⟩)]) := by
  have ⟨first, state⟩
      : (Workplace.round MemoryStore.write
            ⟨{ settings := {} }, socketAndStrandedClient, {}⟩).result
          = .ok ⟨[strandedSocketFactory], (strandedSocketRecorded 1).deferred⟩
        ∧ (Workplace.round MemoryStore.write
            ⟨{ settings := {} }, socketAndStrandedClient, {}⟩).state.generation
          = strandedSocketRecorded 1 := by
    decide +kernel
  have ⟨second, stateAfter⟩
      : (Workplace.round MemoryStore.write
            ⟨strandedSocketRecorded 1, strandedSocketAndFactory,
              (Workplace.round MemoryStore.write
                ⟨{ settings := {} }, socketAndStrandedClient, {}⟩).state.store⟩).result
          = .ok ⟨[], (strandedSocketRecorded 2).deferred⟩
        ∧ (Workplace.round MemoryStore.write
            ⟨strandedSocketRecorded 1, strandedSocketAndFactory,
              (Workplace.round MemoryStore.write
                ⟨{ settings := {} }, socketAndStrandedClient, {}⟩).state.store⟩).state.generation
          = strandedSocketRecorded 2 := by
    decide +kernel
  exact run_eq_unresolved_of_second (by decide) first (by decide) state add_strandedSocketFactory
    second rfl stateAfter (by decide)

/-- The bound is met: there are as many rounds as there are declarations. -/
theorem run_rounds_bounded_strandedClient
    : (socketAndStrandedClient.marked.map Marked.key).Nodup
      ∧ socketAndStrandedClient.marked.length = 2
      ∧ (run MemoryStore.write ⟨{ settings := {} }, socketAndStrandedClient, {}⟩).result
        = .error (.unresolved 2 [("Client::new", ⟨⟨"src/m.rs"⟩, 3⟩)])
      ∧ 2 ≤ max 1 (min ({} : Settings).maxRounds socketAndStrandedClient.marked.length) := by
  have distinct : (socketAndStrandedClient.marked.map Marked.key).Nodup := by decide
  obtain ⟨⟨_, most⟩, _, counted, _⟩ :=
    @run_rounds_bounded {} socketAndStrandedClient {} distinct
  rw [← counted _ _ run_socketAndStrandedClient] at most
  exact ⟨distinct, rfl, run_socketAndStrandedClient, most⟩

end Workplace

end Wiring
