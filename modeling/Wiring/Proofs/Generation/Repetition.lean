import Wiring.Proofs.Generation.Atomicity
import Wiring.Proofs.Generation.Quiescence

/-! Rounds over the same candidates again. Once a round has succeeded over candidates with keys of their
own, it has taken in all that they offer: further rounds over them look at what it deferred, and defer
this again.
-/

namespace Wiring

-----------------------------------------------------------------------------------------
-- Candidates that have nothing more to offer
-----------------------------------------------------------------------------------------

namespace Generation

variable {candidates : List Candidate}

/-- Candidates share a key with a deferred one only if they are deferred themselves, where keys tell
them apart. So these are what the round behind looks at. A key is open behind the round if it is
deferred, and it is deferred with the one candidate that has it.
-/
theorem looksAt_settle {generation settled : Generation} {known : List Injectable} {intake : Intake}
    (takes : Intake.Takes known (generation.looksAt candidates) intake)
    (distinct : (candidates.map fun candidate => candidate.marked.key).Nodup)
    : (settled.settle candidates intake.deferred).looksAt candidates
      = (generation.looksAt candidates).filter fun candidate => candidate.injectable?.isNone := by
  rw [looksAt, looksAt, List.filter_filter]
  refine List.filter_congr fun candidate present => Bool.eq_iff_iff.mpr ?_
  have known : candidate.marked.key ∈ candidates.map fun candidate => candidate.marked.key :=
    List.mem_map_of_mem present
  have deferred
      : candidate.marked.key ∈ intake.deferred.map Marked.key
        ↔ candidate.injectable? = none ∧ candidate.marked.key ∉ generation.processed := by
    rw [takes.deferred, List.map_map, List.mem_map]
    constructor
    · rintro ⟨other, left, same⟩
      obtain ⟨looked, unresolved⟩ := List.mem_filter.mp left
      obtain ⟨among, unprocessed⟩ := List.mem_filter.mp looked
      obtain rfl := List.inj_on_of_nodup_map distinct among present same
      exact ⟨by simpa using unresolved, by simpa using unprocessed⟩
    · rintro ⟨unresolved, unprocessed⟩
      refine ⟨candidate, List.mem_filter.mpr ⟨List.mem_filter.mpr ⟨present, ?_⟩, ?_⟩, rfl⟩
      · simpa using unprocessed
      · rw [unresolved]
        rfl
  calc (!(settled.settle candidates intake.deferred).processed.contains candidate.marked.key) = true
    _ ↔ candidate.marked.key ∉ (settled.settle candidates intake.deferred).processed := by simp
    _ ↔ candidate.marked.key ∈ intake.deferred.map Marked.key := by
        simp only [settle, settledKeys, List.mem_filter, known, true_and, List.contains_iff_mem,
          Bool.not_eq_true', Bool.eq_false_iff, ne_eq, not_not]
    _ ↔ (candidate.injectable?.isNone && !generation.processed.contains candidate.marked.key)
          = true := by
        rw [deferred]
        simp

/-- Whatever its store, a round over the candidates makes nothing, leaves just what is left already, and
changes nothing but the number of rounds.
-/
def Exhausts (generation : Generation) (candidates : List Candidate) : Prop :=
  ∀ {σ : Type} (write : Writer σ) (store : σ),
    (generation.round write candidates store).result = .ok ⟨[], generation.deferred⟩
    ∧ (generation.round write candidates store).state = (generation.begin, store)

/-- This is so behind a round that succeeded over them. -/
theorem RoundEnds.exhausts {generation after : Generation} {round : Round}
    {factories : List Artifact} (ends : RoundEnds generation candidates (.ok round) after factories)
    (distinct : (candidates.map fun candidate => candidate.marked.key).Nodup)
    : after.Exhausts candidates := by
  cases ends with
  | @done intake _ takes _ =>
      intro σ write store
      obtain ⟨result, state⟩ :=
        round_of_unresolved (looksAt_settle takes distinct)
          (fun candidate left => takes.plain candidate (List.mem_of_mem_filter left))
          (fun candidate left => by simpa using (List.mem_filter.mp left).2) write store
      rw [← takes.deferred] at result state
      exact ⟨result, state⟩

/-- Beginning another round does not bring candidates back. -/
theorem Exhausts.begin {generation : Generation} (exhausts : generation.Exhausts candidates)
    : generation.begin.Exhausts candidates := by
  intro σ write store
  obtain ⟨result, state⟩ := exhausts write store
  obtain ⟨same, counted⟩ := generation.round_begin write candidates store
  refine ⟨same.trans result, counted.trans ?_⟩
  exact congrArg (fun state : Generation × σ => (state.1.begin, state.2)) state

end Generation

-----------------------------------------------------------------------------------------
-- Calls for the same again
-----------------------------------------------------------------------------------------

namespace History

variable {history : History}

/-- A call over candidates that have nothing more to offer counts itself and does nothing else. -/
theorem next_of_exhausts (deferred : history.generation.deferred = history.deferred)
    {call : RoundCall} (exhausts : history.generation.Exhausts call.candidates)
    : history.next call = history.counted := by
  obtain ⟨result, state⟩ := exhausts call.write call.store
  have taken : history.generation.taken call.write call.candidates call.store = [] := by
    rw [Generation.taken, (exhausts call.write.listing (call.store, [])).2]
  simp only [next, RoundCall.reply, result, state, taken, List.append_nil, counted, deferred]
  rfl

/-- So do any number of such calls, by induction on them. -/
theorem foldl_next_of_exhausts (deferred : history.generation.deferred = history.deferred)
    {candidates : List Candidate} (exhausts : history.generation.Exhausts candidates)
    (calls : List RoundCall) (same : ∀ call ∈ calls, call.candidates = candidates)
    : calls.foldl next history
        = { history with
            generation :=
              { history.generation with rounds := history.generation.rounds + calls.length } }
      ∧ (calls.foldl next history).generation.Exhausts candidates := by
  induction calls generalizing history with
  | nil => exact ⟨rfl, exhausts⟩
  | cons call rest ih =>
      obtain ⟨here, later⟩ := List.forall_mem_cons.mp same
      have step : history.next call = history.counted :=
        next_of_exhausts deferred (by rw [here]; exact exhausts)
      have going : history.counted.generation.Exhausts candidates := exhausts.begin
      have stays : history.counted.generation.deferred = history.counted.deferred := deferred
      obtain ⟨last, exhaustsLast⟩ := ih stays going later
      rw [List.foldl_cons, step]
      refine ⟨last.trans ?_, exhaustsLast⟩
      simp only [counted, Generation.begin, List.length_cons, Nat.add_comm, Nat.add_left_comm]

/-- Behind a call that succeeded over candidates with keys of their own, whatever was called before it,
any further call over the same candidates succeeds, makes nothing and writes nothing. However often the
candidates are asked for, what is recorded, the keys that later rounds pass over, and what is left in
its order stay as the first of these calls left them. The first call leaves only candidates that
nothing resolves, so every later round over them makes nothing and defers them again.
-/
theorem ofCalls_repeated {settings : Settings} {calls : List RoundCall} {call : RoundCall}
    {round : Round} (more : List RoundCall) (again : RoundCall)
    (distinct : (call.candidates.map fun candidate => candidate.marked.key).Nodup)
    (done : (call.reply (ofCalls settings calls).generation).result = .ok round)
    (same : ∀ later ∈ again :: more, later.candidates = call.candidates)
    : let first := ofCalls settings (calls ++ [call])
      let last := ofCalls settings (calls ++ call :: more)
      first.generation.deferred = round.deferred
        ∧ last.generation
          = { first.generation with rounds := first.generation.rounds + more.length }
        ∧ last.taken = first.taken
        ∧ last.deferred = first.deferred
        ∧ (again.reply last.generation).result = .ok ⟨[], round.deferred⟩
        ∧ (again.reply last.generation).state
          = ({ last.generation with rounds := last.generation.rounds + 1 }, again.store) := by
  intro first last
  have ends :=
    (ofCalls settings calls).generation.roundEnds_taken call.write call.candidates call.store
  rw [RoundCall.reply] at done
  rw [done] at ends
  have reached
      : first.generation
        = ((ofCalls settings calls).generation.round call.write call.candidates call.store).state.1 :=
    congrArg History.generation (ofCalls_append settings calls [call])
  have deferred : first.generation.deferred = round.deferred := by
    rw [reached, ends.deferred_eq]
    rfl
  have exhausts : first.generation.Exhausts call.candidates := by
    rw [reached]
    exact ends.exhausts distinct
  have sound : first.Sound := (Sound.start settings).foldl_next (calls ++ [call])
  have behind : last = more.foldl next first := by
    rw [← ofCalls_append, List.append_assoc, List.singleton_append]
  obtain ⟨sameAgain, sameMore⟩ := List.forall_mem_cons.mp same
  obtain ⟨after, exhaustsAfter⟩ :=
    foldl_next_of_exhausts sound.deferred exhausts more sameMore
  rw [← behind] at after exhaustsAfter
  have left : last.generation.deferred = round.deferred := by
    rw [after]
    exact deferred
  obtain ⟨result, state⟩ := exhaustsAfter again.write again.store
  rw [RoundCall.reply, sameAgain, result, state, left, after]
  exact ⟨deferred, rfl, rfl, rfl, rfl, rfl⟩

/-- A client whose parameter is not known yet, and its socket. -/
private def openClientAndSocket : List Candidate :=
  [clientCandidate none, ⟨Workplace.constructorOf "Socket" [] 5, some socket, some []⟩]

/-- The factory of the socket is made once, and the client is left as often as it is asked for. -/
theorem ofCalls_repeated_openClient
    : let call : RoundCall := ⟨MemoryStore.write, openClientAndSocket, {}⟩
      let last := ofCalls {} [call, call, call]
      (call.reply last.generation).result = .ok ⟨[], [(clientCandidate none).marked]⟩
        ∧ last.taken.map Artifact.name = ["SocketFactory"] := by
  intro call last
  have distinct : (openClientAndSocket.map fun candidate => candidate.marked.key).Nodup := by decide
  have ran
      : ((call.reply (ofCalls {} []).generation).result.toOption.map Round.deferred,
          (ofCalls {} [call]).taken.map Artifact.name)
        = (some [(clientCandidate none).marked], ["SocketFactory"]) := by
    rfl
  obtain ⟨answered, made⟩ := Prod.mk.inj ran
  obtain ⟨round, done, deferred⟩ := Option.map_eq_some_iff.mp answered
  obtain ⟨_, _, taken, _, result, _⟩ :=
    ofCalls_repeated [call, call] call distinct (eq_ok_of_toOption_eq_some done) (by simp)
  rw [deferred] at result
  exact ⟨result, (congrArg (List.map Artifact.name) taken).trans made⟩

end History

end Wiring
