import Wiring.Proofs.Generation.Calls
import Wiring.Proofs.Generation.Rejections

/-! Rounds that invalid declarations spoil. Such a round writes nothing and counts itself, and later
rounds go on as if it had never been asked for. Without the declarations at fault it takes in what
it found before.
-/

namespace Wiring

-----------------------------------------------------------------------------------------
-- The number of rounds
-----------------------------------------------------------------------------------------

namespace Generation

variable {σ : Type}

/-- The same reply, about a generation with one more round. -/
def counted {α : Type} (reply : Reply (Generation × σ) α) : Reply (Generation × σ) α :=
  reply.lift fun (generation, store) => (generation.begin, store)

/-- Emitting does not depend on the number of rounds, which it leaves as it finds it. -/
theorem emit_begin (write : Writer σ) (injectable : Injectable) (generation : Generation) (store : σ)
    : emit write injectable generation.begin store
      = counted (emit write injectable generation store) := by
  unfold emit
  cases Emission.factory? injectable with
  | none => rfl
  | some factory =>
      dsimp only
      rcases write store factory with ⟨state, events, answer⟩
      cases answer with
      | error failure => rfl
      | ok => rfl

/-- What is emitted does not go by the number of rounds, by induction on the injectables. -/
theorem emitEach_begin (write : Writer σ) (injectables : List Injectable) (generation : Generation)
    (store : σ)
    : emitEach write injectables generation.begin store
      = counted (emitEach write injectables generation store) := by
  induction injectables generalizing generation store with
  | nil => rfl
  | cons injectable rest ih =>
      rw [emitEach, emitEach, emit_begin]
      refine (Reply.lift_andThen ?_).symm
      intro state artifact
      exact congrArg (Reply.map (artifact :: ·)) (ih state.1 state.2).symm

/-- Nor does taking in, by the same for each of the accepted descriptors. -/
theorem takeIn_begin (write : Writer σ) (candidates : List Candidate) (intake : Intake)
    (generation : Generation) (store : σ)
    : (takeIn write candidates intake generation.begin store).result
        = (takeIn write candidates intake generation store).result
      ∧ (takeIn write candidates intake generation.begin store).state
        = (counted (takeIn write candidates intake generation store)).state := by
  rw [takeIn, takeIn, emitEach_begin]
  rcases emitEach write intake.accepted generation store with ⟨state, events, answer⟩
  cases answer with
  | error failure => exact ⟨rfl, rfl⟩
  | ok emitted => exact ⟨rfl, rfl⟩

/-- A round with another number only differs in the number. -/
theorem round_begin (write : Writer σ) (candidates : List Candidate) (generation : Generation)
    (store : σ)
    : (generation.begin.round write candidates store).result
        = (generation.round write candidates store).result
      ∧ (generation.begin.round write candidates store).state
        = (counted (generation.round write candidates store)).state := by
  have same
      : Intake.rulings generation.begin.begin.processed generation.begin.begin.injectables candidates
        = Intake.rulings generation.begin.processed generation.begin.injectables candidates :=
    rfl
  unfold round
  dsimp only
  rw [same]
  split
  · exact ⟨rfl, rfl⟩
  · exact takeIn_begin write candidates _ generation.begin store

/-- So a round takes the same artifacts whatever its number is. -/
theorem taken_begin (write : Writer σ) (candidates : List Candidate) (generation : Generation)
    (store : σ)
    : generation.begin.taken write candidates store = generation.taken write candidates store := by
  unfold taken
  rw [(round_begin write.listing candidates generation (store, [])).2]
  rfl

-----------------------------------------------------------------------------------------
-- A round that is spoiled
-----------------------------------------------------------------------------------------

variable {generation : Generation} {candidates : List Candidate} {diagnostics : List Diagnostic}

/-- A spoiled round comes to this with any writer. -/
theorem round_of_invalid
    (invalid
      : Intake.ofRulings (Intake.rulings generation.processed generation.injectables candidates)
        = .error diagnostics)
    (write : Writer σ) (store : σ)
    : generation.round write candidates store
      = {
        state := (generation.begin, store)
        events :=
          Intake.events (Intake.rulings generation.processed generation.injectables candidates)
        result := .error (.invalid diagnostics)
      } := by
  have invalid
      : Intake.ofRulings
          (Intake.rulings generation.begin.processed generation.begin.injectables candidates)
        = .error diagnostics :=
    invalid
  simp only [round, invalid, Reply.telling, Reply.failed, List.append_nil]
  rfl

/-- A round of invalid declarations takes none, as it does not come to write. -/
theorem taken_of_invalid
    (invalid
      : Intake.ofRulings (Intake.rulings generation.processed generation.injectables candidates)
        = .error diagnostics)
    (write : Writer σ) (store : σ)
    : generation.taken write candidates store = [] := by
  rw [taken, round_of_invalid invalid]

end Generation

-----------------------------------------------------------------------------------------
-- The declarations at fault removed
-----------------------------------------------------------------------------------------

namespace Ruling

/-- The candidates without those at fault. -/
def spared (known : List Injectable) (candidates : List Candidate) : List Candidate :=
  ((candidates.zip (all known candidates)).filter fun (_, ruling) => ruling.diagnostic?.isNone).map
    Prod.fst

/-- The other candidates are ruled on as before, by induction on the candidates: none at fault is taken
for those that follow.
-/
theorem all_spared (known : List Injectable) (candidates : List Candidate)
    : all known (spared known candidates)
      = (all known candidates).filter fun ruling => ruling.diagnostic?.isNone := by
  induction candidates generalizing known with
  | nil => rfl
  | cons candidate rest ih =>
      cases decided : on known candidate with
      | invalid diagnostic =>
          simpa [spared, all, decided, diagnostic?] using ih known
      | deferred marked =>
          simpa [spared, all, decided, diagnostic?] using ih known
      | accepted injectable =>
          simpa [spared, all, decided, diagnostic?] using ih (known ++ [injectable])

/-- Rulings with a diagnostic hold nothing else. -/
theorem filterMap_spared {α : Type} {part? : Ruling → Option α}
    (nothing : ∀ diagnostic, part? (.invalid diagnostic) = none) (rulings : List Ruling)
    : (rulings.filter fun ruling => ruling.diagnostic?.isNone).filterMap part?
      = rulings.filterMap part? := by
  rw [List.filterMap_filter]
  refine List.filterMap_congr fun ruling _ => ?_
  cases ruling with
  | invalid diagnostic => exact (nothing diagnostic).symm
  | deferred => rfl
  | accepted => rfl

end Ruling

namespace Intake

/-- What a scan takes in once the declarations at fault are removed: what it would have taken in but
for them.
-/
theorem ofRulings_spared (known : List Injectable) (candidates : List Candidate)
    : ofRulings (Ruling.all known (Ruling.spared known candidates))
      = .ok {
        accepted := (Ruling.all known candidates).filterMap Ruling.accepted?
        deferred := (Ruling.all known candidates).filterMap Ruling.deferred?
      } := by
  have valid
      : (Ruling.all known (Ruling.spared known candidates)).filterMap Ruling.diagnostic? = [] := by
    rw [Ruling.all_spared]
    refine List.filterMap_eq_nil_iff.mpr fun ruling spared => ?_
    simpa using (List.mem_filter.mp spared).2
  rw [ofRulings, valid, Ruling.all_spared, Ruling.filterMap_spared fun _ => rfl,
    Ruling.filterMap_spared fun _ => rfl]

end Intake

-----------------------------------------------------------------------------------------
-- Calls after a spoiled one
-----------------------------------------------------------------------------------------

namespace History

/-- The same history, with one more round that came to nothing. -/
def counted (history : History) : History :=
  { history with generation := history.generation.begin }

/-- A later call comes to the same, but for the number of rounds. -/
theorem next_counted (history : History) (call : RoundCall)
    : history.counted.next call = (history.next call).counted := by
  obtain ⟨result, state⟩ :=
    history.generation.round_begin call.write call.candidates call.store
  simp only [next, counted, RoundCall.reply, Generation.taken_begin]
  rw [result, state]
  rfl

/-- A failed call that is counted before others is counted after them, by induction on the calls. -/
theorem foldl_next_counted (history : History) (calls : List RoundCall)
    : calls.foldl next history.counted = (calls.foldl next history).counted := by
  induction calls generalizing history with
  | nil => rfl
  | cons call rest ih => rw [List.foldl_cons, List.foldl_cons, next_counted, ih]

/-- A call with invalid declarations does nothing but count. -/
theorem next_of_invalid {history : History} {call : RoundCall} {diagnostics : List Diagnostic}
    (invalid
      : Intake.ofRulings
          (Intake.rulings history.generation.processed history.generation.injectables
            call.candidates)
        = .error diagnostics)
    : history.next call = history.counted := by
  simp only [next, RoundCall.reply, Generation.round_of_invalid invalid,
    Generation.taken_of_invalid invalid, List.append_nil]
  rfl

/-- A call that is spoiled by invalid declarations reports them whatever the writer does, without a
write, and counts itself. All calls after it answer as they do without it, and leave the same
generation but for the number of rounds. One that asks for the same candidates without those at
fault takes in all others.
-/
theorem ofCalls_skips_spoiled (settings : Settings) (calls : List RoundCall) (spoiled : RoundCall)
    {generation : Generation} {diagnostics : List Diagnostic}
    (reached : (ofCalls settings calls).generation = generation)
    (invalid
      : Intake.ofRulings
          (Intake.rulings generation.processed generation.injectables spoiled.candidates)
        = .error diagnostics)
    : (spoiled.reply generation).result = .error (.invalid diagnostics)
      ∧ (spoiled.reply generation).state
        = ({ generation with rounds := generation.rounds + 1 }, spoiled.store)
      ∧ (∀ write : Writer spoiled.Store,
          generation.round write spoiled.candidates spoiled.store = spoiled.reply generation)
      ∧ (∀ more : List RoundCall, ∀ later : RoundCall,
          let skipped := ofCalls settings (calls ++ more)
          let history := ofCalls settings (calls ++ spoiled :: more)
          history.generation
              = { skipped.generation with rounds := skipped.generation.rounds + 1 }
            ∧ history.taken = skipped.taken
            ∧ history.deferred = skipped.deferred
            ∧ (later.reply history.generation).result = (later.reply skipped.generation).result
            ∧ (later.reply history.generation).state.2 = (later.reply skipped.generation).state.2)
      ∧ ∀ remaining,
          Intake.lookedAt generation.processed remaining
            = Ruling.spared generation.injectables
                (Intake.lookedAt generation.processed spoiled.candidates)
          → Intake.ofRulings
              (Intake.rulings generation.processed generation.injectables remaining)
            = .ok {
              accepted :=
                (Intake.rulings generation.processed generation.injectables
                  spoiled.candidates).filterMap Ruling.accepted?
              deferred :=
                (Intake.rulings generation.processed generation.injectables
                  spoiled.candidates).filterMap Ruling.deferred?
            } := by
  have spoils (write : Writer spoiled.Store) :=
    Generation.round_of_invalid invalid write spoiled.store
  refine ⟨?_, ?_, ?_, ?_, ?_⟩
  · rw [RoundCall.reply, spoils]
  · rw [RoundCall.reply, spoils]
    rfl
  · intro write
    rw [RoundCall.reply, spoils, spoils]
  · intro more later
    have same
        : ofCalls settings (calls ++ spoiled :: more)
          = (ofCalls settings (calls ++ more)).counted := by
      subst reached
      rw [ofCalls_append, ofCalls_append, List.foldl_cons, next_of_invalid invalid,
        foldl_next_counted]
    dsimp only
    rw [same]
    obtain ⟨result, state⟩ :=
      (ofCalls settings (calls ++ more)).generation.round_begin later.write later.candidates
        later.store
    have store := congrArg Prod.snd state
    exact ⟨rfl, rfl, rfl, result, store⟩
  · intro remaining removed
    rw [Intake.rulings, ← Intake.lookedAt, removed]
    exact Intake.ofRulings_spared _ _

/-- A socket, as the parameter of clients asks for it. -/
private def socketCandidate : Candidate where
  marked := Workplace.constructorOf "Socket" [] 5
  owner := some socket
  parameters := some []

/-- The socket is asked for together with a second constructor of the client. -/
private def clientAgainCall : RoundCall where
  write := MemoryStore.write
  candidates := [
    socketCandidate,
    ⟨Workplace.constructorOf "Client" [] 9, some ⟨"crate::m", "Client"⟩, some []⟩
  ]
  store := {}

/-- The second constructor of a client is reported. The socket that came with it is taken in later, with
the same factory as without the report.
-/
theorem ofCalls_skips_spoiled_clientAgain
    : let calls := [clientCall (some [socket])]
      let socketCall : RoundCall := ⟨MemoryStore.write, [socketCandidate], {}⟩
      (∃ diagnostics,
          (clientAgainCall.reply (ofCalls {} calls).generation).result
            = .error (.invalid diagnostics))
        ∧ (ofCalls {} (calls ++ [clientAgainCall, socketCall])).taken
          = (ofCalls {} (calls ++ [socketCall])).taken
        ∧ ((ofCalls {} (calls ++ [socketCall])).taken.map Artifact.name)
          = ["ClientFactory", "SocketFactory"] := by
  intro calls socketCall
  let generation := (ofCalls {} calls).generation
  let rulings :=
    Intake.rulings generation.processed generation.injectables clientAgainCall.candidates
  have kinds : (rulings.filterMap Ruling.diagnostic?).map (·.kind) = [.duplicateBinding] := rfl
  have invalid : Intake.ofRulings rulings = .error (rulings.filterMap Ruling.diagnostic?) :=
    Intake.ofRulings_eq_error_iff.mpr ⟨rfl, fun none => by simp [none] at kinds⟩
  obtain ⟨reported, _, _, skipped, _⟩ := ofCalls_skips_spoiled {} calls clientAgainCall rfl invalid
  obtain ⟨_, taken, _⟩ := skipped [socketCall] socketCall
  exact ⟨⟨_, reported⟩, taken, rfl⟩

end History

end Wiring
