import Wiring.Proofs.Generation.Accounting

/-! Rounds as a caller may ask for them: one after the other, each over candidates of its own and into
a store of its own, and on after rounds that failed. Whatever is asked for, what has been recorded
stays and is what the stores took, and what was deferred last is looked at again.
-/

namespace Wiring

-----------------------------------------------------------------------------------------
-- What one round comes to
-----------------------------------------------------------------------------------------

/-- The list that a store keeps grows by just the artifacts it takes. -/
structure Writer.Logs {σ : Type} (write : Writer σ) (log : σ → List Artifact) : Prop where
  taken
    : ∀ {store artifact},
        (write store artifact).result = .ok ()
        → log (write store artifact).state = log store ++ [artifact]
  refused
    : ∀ {store artifact failure},
        (write store artifact).result = .error failure
        → log (write store artifact).state = log store

namespace Generation

variable {σ : Type} {write : Writer σ} {log : σ → List Artifact}

/-- An injectable is accepted once its factory is taken, or else nothing changes. The factory is
written first, and the injectable accepted only behind it.
-/
theorem emit_logs (logs : write.Logs log) (injectable : Injectable) (generation : Generation)
    (store : σ)
    : (∃ failure,
          (emit write injectable generation store).result = .error failure
          ∧ (emit write injectable generation store).state.1 = generation
          ∧ log (emit write injectable generation store).state.2 = log store)
      ∨ ∃ factory,
          Emission.factory? injectable = some factory
          ∧ (emit write injectable generation store).result = .ok factory
          ∧ (emit write injectable generation store).state.1 = generation.accept injectable
          ∧ log (emit write injectable generation store).state.2 = log store ++ [factory] := by
  unfold emit
  cases made : Emission.factory? injectable with
  | none => exact .inl ⟨_, rfl, rfl, rfl⟩
  | some factory =>
      dsimp only
      let reply := (write store factory).lift fun store => (generation, store)
      cases answer : (write store factory).result with
      | error failure =>
          have failed : reply.result = .error failure := answer
          refine .inl ⟨failure, Reply.andThen_of_error failed, ?_, ?_⟩
          · rw [Reply.state_andThen_of_error failed]
            rfl
          · rw [Reply.state_andThen_of_error failed]
            exact logs.refused answer
      | ok =>
          have done : reply.result = .ok () := answer
          obtain ⟨result, state⟩ := Reply.andThen_of_ok done
          exact .inr ⟨factory, rfl, result, congrArg Prod.fst state,
            (congrArg (fun state => log state.2) state).trans (logs.taken answer)⟩

/-- Of the injectables some in front are accepted with their factories, by induction on them; all of
them, if nothing fails.
-/
theorem emitEach_logs (logs : write.Logs log) (injectables : List Injectable)
    (generation : Generation) (store : σ)
    : ∃ recorded factories,
        recorded <+: injectables
        ∧ List.Forall₂ (fun injectable factory => Emission.factory? injectable = some factory)
            recorded factories
        ∧ (emitEach write injectables generation store).state.1 = recorded.foldl accept generation
        ∧ log (emitEach write injectables generation store).state.2 = log store ++ factories
        ∧ ∀ emitted,
            (emitEach write injectables generation store).result = .ok emitted
            → recorded = injectables ∧ factories = emitted := by
  induction injectables generalizing generation store with
  | nil =>
      refine ⟨[], [], List.prefix_rfl, .nil, rfl, (List.append_nil _).symm, ?_⟩
      intro emitted done
      exact ⟨rfl, Except.ok.inj done⟩
  | cons injectable rest ih =>
      rw [emitEach]
      rcases emit_logs logs injectable generation store with
        ⟨failure, failed, same, logged⟩ | ⟨factory, made, done, accepted, logged⟩
      · refine ⟨[], [], List.nil_prefix, .nil, ?_, ?_, ?_⟩
        · rw [Reply.state_andThen_of_error failed, same]
          rfl
        · rw [Reply.state_andThen_of_error failed, logged, List.append_nil]
        · intro emitted succeeds
          rw [Reply.andThen_of_error failed] at succeeds
          contradiction
      · obtain ⟨result, state⟩ := Reply.andThen_of_ok done
        rw [result, state]
        rcases reached : (emit write injectable generation store).state with ⟨next, kept⟩
        rw [reached] at accepted logged
        dsimp only
        obtain ⟨recorded, factories, front, pairs, after, all, whole⟩ := ih next kept
        refine ⟨injectable :: recorded, factory :: factories, (List.prefix_cons_inj _).mpr front,
          .cons made pairs, ?_, ?_, ?_⟩
        · exact after.trans (congrArg (recorded.foldl accept) accepted)
        · exact all.trans (by rw [logged, List.append_assoc, List.singleton_append])
        · intro emitted succeeds
          obtain ⟨others, ended, rfl⟩ := Reply.map_eq_ok succeeds
          obtain ⟨rfl, rfl⟩ := whole others ended
          exact ⟨rfl, rfl⟩

/-- Those of the candidates that the next round looks at. -/
def looksAt (generation : Generation) (candidates : List Candidate) : List Candidate :=
  candidates.filter fun candidate => !generation.processed.contains candidate.marked.key

/-- What a round over the candidates comes to: its result, the generation after it, and the factories
that the store took. One that fails has recorded some injectables of new targets. One that succeeds
has recorded all that it took in, and is done with the candidates that it did not defer.
-/
inductive RoundEnds (generation : Generation) (candidates : List Candidate)
    : Except Failure Round → Generation → List Artifact → Prop
  | failed {failure recorded factories}
    (fresh
      : ∀ injectable ∈ recorded, ∀ earlier ∈ generation.injectables,
          earlier.target ≠ injectable.target)
    (distinct : (recorded.map Injectable.target).Nodup)
    (made
      : List.Forall₂ (fun injectable factory => Emission.factory? injectable = some factory)
          recorded factories)
    : RoundEnds generation candidates (.error failure) (recorded.foldl accept generation.begin)
        factories
  | done {intake factories}
    (takes : Intake.Takes generation.injectables (generation.looksAt candidates) intake)
    (made
      : List.Forall₂ (fun injectable factory => Emission.factory? injectable = some factory)
          intake.accepted factories)
    : RoundEnds generation candidates (.ok ⟨factories, intake.deferred⟩)
        ((intake.accepted.foldl accept generation.begin).settle candidates intake.deferred) factories

/-- A round ends in one of the ways listed, by its own steps: ruling, emitting in order, and taking in.
-/
theorem roundEnds (logs : write.Logs log) (candidates : List Candidate) (generation : Generation)
    (store : σ)
    : ∃ factories,
        log (generation.round write candidates store).state.2 = log store ++ factories
        ∧ RoundEnds generation candidates (generation.round write candidates store).result
            (generation.round write candidates store).state.1 factories := by
  unfold round
  dsimp only [Reply.telling]
  split
  · refine ⟨[], (List.append_nil _).symm, ?_⟩
    exact RoundEnds.failed (by simp : ∀ injectable ∈ [], _) .nil .nil
  · rename_i intake ruled
    have takes : Intake.Takes generation.injectables (generation.looksAt candidates) intake :=
      Intake.takes_of_ofRulings ruled
    obtain ⟨recorded, factories, front, made, state, logged, whole⟩ :=
      emitEach_logs logs intake.accepted generation.begin store
    rw [takeIn]
    cases answer : (emitEach write intake.accepted generation.begin store).result with
    | error failure =>
        rw [Reply.andThen_of_error answer, Reply.state_andThen_of_error answer, state]
        refine ⟨factories, logged, .failed (fun injectable member => ?_) ?_ made⟩
        · exact takes.fresh injectable (front.subset member)
        · exact takes.distinct.sublist (front.sublist.map Injectable.target)
    | ok emitted =>
        obtain ⟨rfl, rfl⟩ := whole emitted answer
        obtain ⟨result, after⟩ := Reply.andThen_of_ok answer
        rw [result, after]
        rcases reached : (emitEach write intake.accepted generation.begin store).state with
          ⟨next, kept⟩
        rw [reached] at state logged
        obtain rfl : next = _ := state
        exact ⟨factories, logged, .done takes made⟩

/-- Accepting keeps descriptors ascending, by induction on what is accepted. -/
theorem ascending_foldl_accept (accepted : List Injectable) {generation : Generation}
    (ascending : generation.injectables.Pairwise fun left right => left.target < right.target)
    : (accepted.foldl accept generation).injectables.Pairwise fun left right =>
        left.target < right.target := by
  induction accepted generalizing generation with
  | nil => exact ascending
  | cons injectable rest ih =>
      refine ih ?_
      rw [accept, Injectable.insertInto_eq_insertBy]
      exact Ascending.pairwise_insertBy injectable ascending

/-- A round records injectables of new targets, those whose factories the store took, and nothing
else changes what is recorded.
-/
theorem RoundEnds.records {generation after : Generation} {candidates : List Candidate}
    {result : Except Failure Round} {factories : List Artifact}
    (ends : RoundEnds generation candidates result after factories)
    : ∃ recorded,
        after.injectables.Perm (generation.injectables ++ recorded)
        ∧ List.Forall₂ (fun injectable factory => Emission.factory? injectable = some factory)
            recorded factories := by
  cases ends with
  | @failed _ recorded _ fresh distinct made =>
      exact ⟨recorded, foldl_accept_perm fresh distinct, made⟩
  | @done intake _ takes made =>
      exact ⟨intake.accepted, foldl_accept_perm takes.fresh takes.distinct, made⟩

/-- No round forgets a descriptor. -/
theorem RoundEnds.subset {generation after : Generation} {candidates : List Candidate}
    {result : Except Failure Round} {factories : List Artifact}
    (ends : RoundEnds generation candidates result after factories)
    : generation.injectables ⊆ after.injectables := by
  obtain ⟨_, perm, _⟩ := ends.records
  exact List.Subset.trans (List.subset_append_left _ _) perm.symm.subset

/-- The recorded injectables ascend by target, and the factories are theirs. -/
structure HasMade (generation : Generation) (factories : List Artifact) : Prop where
  ascending : generation.injectables.Pairwise fun left right => left.target < right.target
  made
    : ∃ recorded,
        recorded.Perm generation.injectables
        ∧ List.Forall₂ (fun injectable factory => Emission.factory? injectable = some factory)
            recorded factories

/-- Behind a round the generation has made its factories as well, since each of them is that of a
descriptor that was added.
-/
theorem RoundEnds.hasMade {generation after : Generation} {candidates : List Candidate}
    {result : Except Failure Round} {factories more : List Artifact}
    (ends : RoundEnds generation candidates result after more)
    (before : generation.HasMade factories)
    : after.HasMade (factories ++ more) where
  ascending := by
    cases ends with
    | @failed _ recorded =>
        exact @ascending_foldl_accept recorded generation.begin before.ascending
    | @done intake =>
        exact @ascending_foldl_accept intake.accepted generation.begin before.ascending
  made := by
    obtain ⟨kept, same, made⟩ := before.made
    obtain ⟨added, perm, madeMore⟩ := ends.records
    exact ⟨kept ++ added, (same.append_right added).trans perm.symm, List.rel_append made madeMore⟩

/-- A round goes by the settings, and leaves them. -/
theorem RoundEnds.settings_eq {generation after : Generation} {candidates : List Candidate}
    {result : Except Failure Round} {factories : List Artifact}
    (ends : RoundEnds generation candidates result after factories)
    : after.settings = generation.settings := by
  cases ends with
  | @failed _ recorded =>
      rw [foldl_accept]
      rfl
  | @done intake =>
      rw [foldl_accept]
      rfl

/-- A round counts itself, whether or not it succeeds. -/
theorem RoundEnds.rounds_eq {generation after : Generation} {candidates : List Candidate}
    {result : Except Failure Round} {factories : List Artifact}
    (ends : RoundEnds generation candidates result after factories)
    : after.rounds = generation.rounds + 1 := by
  cases ends with
  | @failed _ recorded =>
      rw [foldl_accept]
      rfl
  | @done intake =>
      rw [foldl_accept]
      rfl

/-- A round that fails leaves what was left before it. -/
theorem RoundEnds.deferred_eq {generation after : Generation} {candidates : List Candidate}
    {result : Except Failure Round} {factories : List Artifact}
    (ends : RoundEnds generation candidates result after factories)
    : after.deferred = (result.toOption.map Round.deferred).getD generation.deferred := by
  cases ends with
  | @failed _ recorded =>
      rw [foldl_accept]
      rfl
  | done => rfl

/-- No round is done with what it leaves. -/
theorem RoundEnds.unprocessed {generation after : Generation} {candidates : List Candidate}
    {result : Except Failure Round} {factories : List Artifact}
    (ends : RoundEnds generation candidates result after factories)
    (before : ∀ marked ∈ generation.deferred, marked.key ∉ generation.processed)
    : ∀ marked ∈ after.deferred, marked.key ∉ after.processed := by
  cases ends with
  | @failed _ recorded =>
      rw [foldl_accept]
      exact before
  | @done intake =>
      intro marked deferred processed
      have left : marked.key ∈ intake.deferred.map Marked.key := List.mem_map_of_mem deferred
      have apart : (!(intake.deferred.map Marked.key).contains marked.key) = true :=
        (List.mem_filter.mp processed).2
      rw [List.contains_iff_mem.mpr left] at apart
      contradiction

/-- A round that succeeds has deferred or recorded each of the candidates that it looked at. -/
theorem RoundEnds.defers_or_records {generation after : Generation} {candidates : List Candidate}
    {round : Round} {factories : List Artifact}
    (ends : RoundEnds generation candidates (.ok round) after factories) {candidate : Candidate}
    (looked : candidate ∈ generation.looksAt candidates)
    : candidate.marked ∈ round.deferred
      ∨ ∃ injectable ∈ after.injectables, candidate.injectable? = some injectable := by
  cases ends with
  | @done intake factories takes made =>
      cases resolved : candidate.injectable? with
      | none =>
          refine .inl ?_
          rw [takes.deferred]
          exact List.mem_map_of_mem (List.mem_filter.mpr ⟨looked, by simp [resolved]⟩)
      | some injectable =>
          have accepted : injectable ∈ intake.accepted := by
            rw [takes.accepted]
            exact List.mem_filterMap.mpr ⟨candidate, looked, resolved⟩
          have perm
              : (intake.accepted.foldl accept generation.begin).injectables.Perm
                  (generation.injectables ++ intake.accepted) :=
            foldl_accept_perm takes.fresh takes.distinct
          exact .inr ⟨injectable, perm.mem_iff.mpr (List.mem_append_right _ accepted), rfl⟩

/-- What is recorded for a type. -/
def recorded? (generation : Generation) (target : TypeName) : Option Injectable :=
  generation.injectables.find? fun injectable => injectable.target = target

/-- A target is recorded by one descriptor, which a search finds as targets ascend. -/
theorem recorded?_eq_some_iff {generation : Generation}
    (ascending : generation.injectables.Pairwise fun left right => left.target < right.target)
    {target : TypeName} {injectable : Injectable}
    : generation.recorded? target = some injectable
      ↔ injectable ∈ generation.injectables ∧ injectable.target = target := by
  constructor
  · intro found
    exact ⟨List.mem_of_find?_eq_some found, by simpa using List.find?_some found⟩
  · rintro ⟨member, rfl⟩
    cases found : generation.recorded? injectable.target with
    | none => simpa using List.find?_eq_none.mp found injectable member
    | some other =>
        have same : other.target = injectable.target := by simpa using List.find?_some found
        rw [List.inj_on_of_nodup_map (Ascending.nodup_map ascending)
          (List.mem_of_find?_eq_some found) member same]

end Generation

-----------------------------------------------------------------------------------------
-- Stores that list what they take
-----------------------------------------------------------------------------------------

/-- The same writer, to stores that also list the artifacts they took. -/
def Writer.listing {σ : Type} (write : Writer σ) : Writer (σ × List Artifact) :=
  fun (store, taken) artifact =>
    let reply := write store artifact
    { reply with
      state := (reply.state, if reply.result.isOk then taken ++ [artifact] else taken) }

/-- A listing store logs what it has taken. -/
theorem Writer.logs_listing {σ : Type} (write : Writer σ) : write.listing.Logs Prod.snd where
  taken {store artifact} took := by
    have took : (write store.1 artifact).result = .ok () := took
    simp [listing, took, Except.isOk, Except.toBool]
  refused {store artifact failure} refused := by
    have refused : (write store.1 artifact).result = .error failure := refused
    simp [listing, refused, Except.isOk, Except.toBool]

namespace Generation

variable {σ : Type}

/-- A reply about a store that lists, as one about the store alone. -/
def unlisted {α : Type} (reply : Reply (Generation × σ × List Artifact) α)
    : Reply (Generation × σ) α :=
  reply.lift fun (generation, store, _) => (generation, store)

/-- Listing changes nothing about emitting. -/
theorem unlisted_emit (write : Writer σ) (injectable : Injectable) (generation : Generation)
    (store : σ) (taken : List Artifact)
    : unlisted (emit write.listing injectable generation (store, taken))
      = emit write injectable generation store := by
  unfold emit
  cases Emission.factory? injectable with
  | none => rfl
  | some factory => exact Reply.lift_andThen fun _ _ => rfl

/-- It makes no difference that a store lists what it takes, by induction on the injectables. -/
theorem unlisted_emitEach (write : Writer σ) (injectables : List Injectable)
    (generation : Generation) (store : σ) (taken : List Artifact)
    : unlisted (emitEach write.listing injectables generation (store, taken))
      = emitEach write injectables generation store := by
  induction injectables generalizing generation store taken with
  | nil => rfl
  | cons injectable rest ih =>
      rw [emitEach, emitEach, ← unlisted_emit write injectable generation store taken]
      refine Reply.lift_andThen ?_
      intro state artifact
      exact congrArg (Reply.map (artifact :: ·)) (ih state.1 state.2.1 state.2.2)

/-- Nor about a round, by the same for each of its steps. -/
theorem unlisted_round (write : Writer σ) (candidates : List Candidate) (generation : Generation)
    (store : σ) (taken : List Artifact)
    : unlisted (generation.round write.listing candidates (store, taken))
      = generation.round write candidates store := by
  unfold round
  dsimp only
  split
  · rfl
  · rename_i intake _
    change Reply.telling _ (unlisted (takeIn write.listing candidates intake _ (store, taken))) = _
    rw [takeIn, takeIn, ← unlisted_emitEach write intake.accepted _ store taken]
    exact congrArg (Reply.telling _) (Reply.lift_andThen fun _ _ => rfl)

/-- The factories that the store takes in a round, whether or not the round succeeds. -/
def taken (write : Writer σ) (candidates : List Candidate) (generation : Generation) (store : σ)
    : List Artifact :=
  (generation.round write.listing candidates (store, [])).state.2.2

/-- A round ends as it does with a listing store, so what it takes is known for any store. -/
theorem roundEnds_taken (write : Writer σ) (candidates : List Candidate) (generation : Generation)
    (store : σ)
    : RoundEnds generation candidates (generation.round write candidates store).result
        (generation.round write candidates store).state.1
        (generation.taken write candidates store) := by
  obtain ⟨factories, logged, ends⟩ :=
    roundEnds write.logs_listing candidates generation (store, [])
  obtain rfl : generation.taken write candidates store = factories := logged
  rw [← unlisted_round write candidates generation store []]
  exact ends

end Generation

-----------------------------------------------------------------------------------------
-- Call after call
-----------------------------------------------------------------------------------------

/-- A round that is asked for. -/
structure RoundCall where
  {Store : Type}
  write : Writer Store
  candidates : List Candidate
  store : Store

/-- Answers a call, and leaves the generation for the next one. -/
def RoundCall.reply (call : RoundCall) (generation : Generation)
    : Reply (Generation × call.Store) Round :=
  generation.round call.write call.candidates call.store

/-- What has come of calls: the generation, and what can be known about it from outside. -/
structure History where
  generation : Generation
  /-- The factories that the stores have taken. -/
  taken : List Artifact := []
  /-- What the last call that succeeded answered to be left. -/
  deferred : List Marked := []

namespace History

/-- The history with one more call. -/
def next (history : History) (call : RoundCall) : History :=
  let reply := call.reply history.generation
  { generation := reply.state.1
    taken := history.taken ++ history.generation.taken call.write call.candidates call.store
    deferred := (reply.result.toOption.map Round.deferred).getD history.deferred }

/-- The history of calls that begin with nothing. -/
def ofCalls (settings : Settings) (calls : List RoundCall) : History :=
  calls.foldl next { generation := { settings } }

/-- Further calls go on from where the others have led. -/
theorem ofCalls_append (settings : Settings) (calls more : List RoundCall)
    : ofCalls settings (calls ++ more) = more.foldl next (ofCalls settings calls) :=
  List.foldl_append

/-- What holds of a generation between calls. -/
structure Sound (history : History) : Prop where
  made : history.generation.HasMade history.taken
  deferred : history.generation.deferred = history.deferred
  unprocessed
    : ∀ marked ∈ history.generation.deferred, marked.key ∉ history.generation.processed

variable {history : History}

/-- A generation that has not begun is sound. -/
theorem Sound.start (settings : Settings) : Sound { generation := { settings } } :=
  ⟨⟨.nil, [], .nil, .nil⟩, rfl, by simp⟩

/-- A call keeps this, whether or not it succeeds. -/
theorem Sound.next (sound : history.Sound) (call : RoundCall) : (history.next call).Sound := by
  have ends :=
    history.generation.roundEnds_taken call.write call.candidates call.store
  unfold History.next RoundCall.reply
  refine ⟨ends.hasMade sound.made, ?_, ends.unprocessed sound.unprocessed⟩
  dsimp only
  rw [ends.deferred_eq, sound.deferred]

/-- Calls keep it, by induction on them. -/
theorem Sound.foldl_next (sound : history.Sound) (calls : List RoundCall)
    : (calls.foldl History.next history).Sound := by
  induction calls generalizing history with
  | nil => exact sound
  | cons call rest ih => exact ih (sound.next call)

/-- What is recorded stays, by induction on the calls. -/
theorem subset_foldl_next (history : History) (calls : List RoundCall)
    : history.generation.injectables ⊆ (calls.foldl next history).generation.injectables := by
  induction calls generalizing history with
  | nil => exact List.Subset.refl _
  | cons call rest ih =>
      have ends :=
        history.generation.roundEnds_taken call.write call.candidates call.store
      exact List.Subset.trans ends.subset (ih (history.next call))

/-- Whatever was called, each injectable is recorded under its own target, and no later call replaces
or removes it. The recorded injectables are just those whose factories the stores took. What the last
successful call left has no key that later rounds pass over: the next round looks at every candidate
with such a key, and if it succeeds, it leaves the candidate again or has recorded an injectable for
it. All parts are invariants of the ledger of calls, which each further call keeps.
-/
theorem ofCalls_accounted (settings : Settings) (calls : List RoundCall)
    : (∀ injectable ∈ (ofCalls settings calls).generation.injectables,
        (ofCalls settings calls).generation.recorded? injectable.target = some injectable)
      ∧ (∀ more target injectable,
          (ofCalls settings calls).generation.recorded? target = some injectable
          → (ofCalls settings (calls ++ more)).generation.recorded? target = some injectable)
      ∧ (∃ recorded,
          recorded.Perm (ofCalls settings calls).generation.injectables
          ∧ List.Forall₂ (fun injectable factory => Emission.factory? injectable = some factory)
              recorded (ofCalls settings calls).taken)
      ∧ (∀ marked ∈ (ofCalls settings calls).deferred,
          marked.key ∉ (ofCalls settings calls).generation.processed)
      ∧ ∀ call : RoundCall, ∀ marked ∈ (ofCalls settings calls).deferred,
          ∀ candidate ∈ call.candidates,
            candidate.marked.key = marked.key
            → candidate ∈ (ofCalls settings calls).generation.looksAt call.candidates
              ∧ ∀ round,
                  (call.reply (ofCalls settings calls).generation).result = .ok round
                  → candidate.marked ∈ round.deferred
                    ∨ ∃ injectable
                        ∈ (ofCalls settings (calls ++ [call])).generation.injectables,
                      candidate.injectable? = some injectable := by
  have sound : (ofCalls settings calls).Sound := (Sound.start settings).foldl_next calls
  have unprocessed : ∀ marked ∈ (ofCalls settings calls).deferred,
      marked.key ∉ (ofCalls settings calls).generation.processed := by
    rw [← sound.deferred]
    exact sound.unprocessed
  refine ⟨?_, ?_, sound.made.made, unprocessed, ?_⟩
  · intro injectable member
    exact (Generation.recorded?_eq_some_iff sound.made.ascending).mpr ⟨member, rfl⟩
  · intro more target injectable recorded
    obtain ⟨member, same⟩ := (Generation.recorded?_eq_some_iff sound.made.ascending).mp recorded
    rw [ofCalls_append]
    have after := sound.foldl_next more
    exact (Generation.recorded?_eq_some_iff after.made.ascending).mpr
      ⟨subset_foldl_next _ more member, same⟩
  · intro call marked deferred candidate member same
    have looked : candidate ∈ (ofCalls settings calls).generation.looksAt call.candidates :=
      List.mem_filter.mpr ⟨member, by simpa [same] using unprocessed marked deferred⟩
    refine ⟨looked, fun round done => ?_⟩
    have ends :=
      (ofCalls settings calls).generation.roundEnds_taken call.write call.candidates call.store
    rw [RoundCall.reply] at done
    rw [done] at ends
    rw [ofCalls_append]
    exact ends.defers_or_records looked

/-- A type that is not declared. -/
def socket : TypeName :=
  ⟨"crate::m", "Socket"⟩

/-- A client as a round sees it, with what is known of its parameters by then. -/
def clientCandidate (parameters : Option (List TypeName)) : Candidate where
  marked := Workplace.constructorOf "Client" [⟨"socket", .shared (.single "Socket")⟩] 3
  owner := some ⟨"crate::m", "Client"⟩
  parameters := parameters

/-- A call with the client alone. -/
def clientCall (parameters : Option (List TypeName)) : RoundCall :=
  ⟨MemoryStore.write, [clientCandidate parameters], {}⟩

/-- Witness: a client is deferred while its parameter is unknown, and accepted by the call that knows
it.
-/
theorem ofCalls_accounted_clientCalls
    : (ofCalls {} [clientCall none]).deferred = [(clientCandidate none).marked]
      ∧ ∃ injectable
          ∈ (ofCalls {} [clientCall none, clientCall (some [socket])]).generation.injectables,
        (clientCandidate (some [socket])).injectable? = some injectable := by
  have deferred : (ofCalls {} [clientCall none]).deferred = [(clientCandidate none).marked] := by
    decide +kernel
  have ran
      : ((clientCall (some [socket])).reply
            (ofCalls {} [clientCall none]).generation).result.toOption.map Round.deferred
        = some [] := by
    decide +kernel
  obtain ⟨round, done, settled⟩ := Option.map_eq_some_iff.mp ran
  obtain ⟨_, _, _, _, again⟩ := ofCalls_accounted {} [clientCall none]
  obtain ⟨_, decided⟩ :=
    again (clientCall (some [socket])) (clientCandidate none).marked (by simp [deferred])
      (clientCandidate (some [socket])) (List.mem_singleton.mpr rfl) rfl
  refine ⟨deferred, (decided round (eq_ok_of_toOption_eq_some done)).resolve_left ?_⟩
  simp [settled]

end History

end Wiring
