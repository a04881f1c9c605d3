import Wiring.Proofs.Generation.Atomicity

/-! Rounds that the store interrupts. Such a round has recorded the injectables whose factories were
taken before, and is done with none of its declarations. If nothing was recorded, the same round can
be asked for again; else the next one reports each recorded declaration as a duplicate of itself.
-/

namespace Wiring

-----------------------------------------------------------------------------------------
-- What an interrupted round has done
-----------------------------------------------------------------------------------------

namespace Generation

variable {σ : Type} {write : Writer σ} {candidates : List Candidate} {generation : Generation}
  {store : σ} {failure : Failure}

/-- A round that fails over anything but its rulings has accepted some of its injectables in front. The
factories are written in order, and each is followed by its injectable.
-/
theorem exists_recorded_of_logs {log : σ → List Artifact} (logs : write.Logs log)
    (failed : (generation.round write candidates store).result = .error failure)
    (valid : ∀ diagnostics, failure ≠ .invalid diagnostics)
    : ∃ intake recorded factories,
        Intake.ofRulings (Intake.rulings generation.processed generation.injectables candidates)
          = .ok intake
        ∧ recorded <+: intake.accepted
        ∧ List.Forall₂ (fun injectable factory => Emission.factory? injectable = some factory) recorded
            factories
        ∧ (generation.round write candidates store).state.1
          = recorded.foldl accept generation.begin
        ∧ log (generation.round write candidates store).state.2 = log store ++ factories := by
  unfold round at failed ⊢
  dsimp only [Reply.telling] at failed ⊢
  split at failed
  · exact absurd (Except.error.inj failed).symm (valid _)
  · rename_i intake ruled
    obtain ⟨recorded, factories, front, made, state, logged, _⟩ :=
      emitEach_logs logs intake.accepted generation.begin store
    rw [takeIn] at failed ⊢
    rcases Reply.andThen_eq_error failed with emitted | ⟨_, _, told⟩
    · rw [Reply.state_andThen_of_error emitted]
      exact ⟨intake, recorded, factories, ruled, front, made, state, logged⟩
    · contradiction

/-- And the store has taken the factories of these. -/
theorem exists_recorded_taken
    (failed : (generation.round write candidates store).result = .error failure)
    (valid : ∀ diagnostics, failure ≠ .invalid diagnostics)
    : ∃ intake recorded,
        Intake.ofRulings (Intake.rulings generation.processed generation.injectables candidates)
          = .ok intake
        ∧ recorded <+: intake.accepted
        ∧ List.Forall₂ (fun injectable factory => Emission.factory? injectable = some factory) recorded
            (generation.taken write candidates store)
        ∧ (generation.round write candidates store).state.1
          = recorded.foldl accept generation.begin := by
  rw [← unlisted_round write candidates generation store []] at failed ⊢
  obtain ⟨intake, recorded, factories, ruled, front, made, state, logged⟩ :=
    exists_recorded_of_logs write.logs_listing failed valid
  obtain rfl : generation.taken write candidates store = factories := logged
  exact ⟨intake, recorded, ruled, front, made, state⟩

/-- With a store that takes everything a round succeeds, if it rules out no declaration and all its
injectables have factories.
-/
theorem exists_round_of_accepting {intake : Intake}
    (accepts : ∀ store artifact, (write store artifact).result = .ok ())
    (ruled
      : Intake.ofRulings (Intake.rulings generation.processed generation.injectables candidates)
        = .ok intake)
    (made : ∀ injectable ∈ intake.accepted, (Emission.factory? injectable).isSome = true)
    : ∃ round, (generation.round write candidates store).result = .ok round := by
  cases answer : (generation.round write candidates store).result with
  | ok round => exact ⟨round, rfl⟩
  | error failure =>
      rcases round_eq_error answer with ⟨_, _, invalid⟩ | ⟨_, other, same, injectable, member, unmade⟩ |
        ⟨store, artifact, refused⟩
      · rw [ruled] at invalid
        contradiction
      · obtain rfl := Except.ok.inj (ruled.symm.trans same)
        have known := made injectable member
        rw [unmade] at known
        contradiction
      · rw [accepts] at refused
        contradiction

end Generation

-----------------------------------------------------------------------------------------
-- The same candidates again
-----------------------------------------------------------------------------------------

/-- Among injectables with targets of their own it makes no difference in which order one is looked
for.
-/
theorem Injectable.find?_perm {injectables others : List Injectable}
    (perm : injectables.Perm others) (distinct : (injectables.map Injectable.target).Nodup)
    (target : TypeName)
    : (injectables.find? fun injectable => injectable.target = target)
      = others.find? fun injectable => injectable.target = target := by
  cases found : injectables.find? fun injectable => injectable.target = target with
  | none =>
      refine (List.find?_eq_none.mpr fun injectable member => ?_).symm
      exact List.find?_eq_none.mp found injectable (perm.mem_iff.mpr member)
  | some injectable =>
      have member := perm.mem_iff.mp (List.mem_of_find?_eq_some found)
      have named : injectable.target = target := by simpa using List.find?_some found
      cases again : others.find? fun injectable => injectable.target = target with
      | none => simpa [named] using List.find?_eq_none.mp again injectable member
      | some other =>
          have same : other.target = target := by simpa using List.find?_some again
          rw [List.inj_on_of_nodup_map distinct (List.mem_of_find?_eq_some found)
            (perm.mem_iff.mpr (List.mem_of_find?_eq_some again)) (named.trans same.symm)]

namespace Ruling

/-- One of the candidates stands for the injectable, and is reported as a duplicate of this. -/
def SelfDuplicate (candidates : List Candidate) (injectable : Injectable) (diagnostic : Diagnostic)
    : Prop :=
  ∃ candidate ∈ candidates,
    candidate.injectable? = some injectable
    ∧ diagnostic = duplicate candidate.marked injectable.target injectable

/-- One more candidate in front does not hide a duplicate of itself. -/
theorem SelfDuplicate.cons {candidates : List Candidate} (candidate : Candidate)
    (injectable : Injectable) (diagnostic : Diagnostic)
    (shown : SelfDuplicate candidates injectable diagnostic)
    : SelfDuplicate (candidate :: candidates) injectable diagnostic := by
  obtain ⟨other, member, found⟩ := shown
  exact ⟨other, List.mem_cons_of_mem candidate member, found⟩

/-- Candidates with no fault are ruled on again when some that they offer, those in front, are known by
then. Each of these is reported as a duplicate of itself, and nothing else is. By induction on the
candidates.
-/
theorem forall₂_selfDuplicate {candidates : List Candidate}
    {known taken recorded rest : List Injectable}
    (agree
      : ∀ target,
          (taken.find? fun injectable => injectable.target = target)
          = (known ++ recorded).find? fun injectable => injectable.target = target)
    (valid : (all known candidates).filterMap diagnostic? = [])
    (accepted : (all known candidates).filterMap accepted? = recorded ++ rest)
    : List.Forall₂ (SelfDuplicate candidates) recorded
        ((all taken candidates).filterMap diagnostic?) := by
  induction candidates generalizing known taken recorded rest with
  | nil =>
      obtain ⟨rfl, _⟩ := List.append_eq_nil_iff.mp accepted.symm
      exact .nil
  | cons candidate others ih =>
      have decided := decides_on known candidate
      have again := on_eq taken candidate
      unfold all at valid accepted ⊢
      generalize on known candidate = ruling at decided valid accepted
      cases decided with
      | flawed | duplicate => simp [diagnostic?] at valid
      | deferred plain unknown =>
          rw [plain, unknown] at again
          have passed : accepted? (.deferred candidate.marked) = none := rfl
          rw [List.filterMap_cons_none passed] at accepted
          rw [again]
          exact (ih agree valid accepted).imp (SelfDuplicate.cons candidate)
      | @accepted injectable plain resolved fresh =>
          have unknown
              : (known.find? fun earlier => earlier.target = injectable.target) = none := by
            simpa using fresh
          simp only [plain, resolved, agree, List.find?_append, unknown, Option.none_or] at again
          have taken? : accepted? (.accepted injectable) = some injectable := rfl
          rw [List.filterMap_cons_some taken?] at accepted
          cases recorded with
          | nil =>
              -- No more is known than before, so the candidate is accepted again.
              rw [again]
              have acceptedOthers
                  : (all (known ++ [injectable]) others).filterMap accepted? = [] ++ rest.tail :=
                congrArg List.tail accepted
              refine (ih (fun target => ?_) valid acceptedOthers).imp (SelfDuplicate.cons candidate)
              rw [List.find?_append, agree, List.append_nil, List.append_nil, List.find?_append]
          | cons first recorded =>
              obtain ⟨rfl, acceptedOthers⟩ := List.cons.inj accepted
              rw [List.find?_cons_of_pos (by simp)] at again
              rw [again]
              refine .cons ⟨candidate, List.mem_cons_self, resolved, rfl⟩ ?_
              refine (ih (fun target => ?_) valid acceptedOthers).imp (SelfDuplicate.cons candidate)
              rw [agree, List.append_assoc, List.singleton_append]

end Ruling

/-- If some of the injectables that candidates offer, those in front, are recorded already, a round
over the candidates reports each of these as a duplicate of itself. Nothing is processed by what was
recorded, so the candidates are looked at again and find themselves.
-/
theorem Generation.round_of_recorded {σ : Type} {write : Writer σ} {candidates : List Candidate}
    {generation : Generation} {store : σ} {intake : Intake} {recorded : List Injectable}
    (ruled
      : Intake.ofRulings (Intake.rulings generation.processed generation.injectables candidates)
        = .ok intake)
    (front : recorded <+: intake.accepted)
    (perm
      : (recorded.foldl accept generation.begin).injectables.Perm
          (generation.injectables ++ recorded))
    (distinct : ((recorded.foldl accept generation.begin).injectables.map Injectable.target).Nodup)
    (taken : recorded ≠ [])
    : ∃ diagnostics,
        ((recorded.foldl accept generation.begin).round write candidates store).result
          = .error (.invalid diagnostics)
        ∧ List.Forall₂ (Ruling.SelfDuplicate (generation.looksAt candidates)) recorded
            diagnostics := by
  obtain ⟨flawless, rfl⟩ := Intake.ofRulings_eq_ok ruled
  obtain ⟨rest, split⟩ := front
  have reported :=
    Ruling.forall₂_selfDuplicate (Injectable.find?_perm perm distinct) flawless split.symm
  refine ⟨_, ?_, reported⟩
  have rulings
      : Intake.rulings (recorded.foldl accept generation.begin).processed
            (recorded.foldl accept generation.begin).injectables candidates
        = Ruling.all (recorded.foldl accept generation.begin).injectables
            (generation.looksAt candidates) := by
    -- Nothing is processed by what was recorded, so the same candidates are looked at.
    rw [foldl_accept]
    rfl
  rw [round_of_invalid]
  rw [rulings]
  refine Intake.ofRulings_eq_error_iff.mpr ⟨rfl, fun nothing => taken ?_⟩
  exact List.forall₂_nil_right_iff.mp (nothing ▸ reported)

-----------------------------------------------------------------------------------------
-- Calls after an interrupted one
-----------------------------------------------------------------------------------------

namespace History

/-- A call that fails over its store has recorded those of its injectables, in front, whose factories
the store took before, and nothing else has changed. The same candidates may then be asked for with a
store that takes everything. If the first store took nothing, this answers and leaves what it would
have in the first place, but for the number of rounds, and it succeeds if all factories can be made.
But if the first store took anything, it fails: each declaration that was recorded is reported as a
duplicate of itself, and no other one is. The call leaves a front of what it would have taken in, and
the next round looks at the same candidates.
-/
theorem ofCalls_interrupted {settings : Settings} {calls : List RoundCall} {call : RoundCall}
    (again : RoundCall) {generation : Generation} {failure : Failure}
    (reached : (ofCalls settings calls).generation = generation)
    (failed : (call.reply generation).result = .error failure)
    (valid : ∀ diagnostics, failure ≠ .invalid diagnostics)
    (same : again.candidates = call.candidates)
    (accepts : ∀ store artifact, (again.write store artifact).result = .ok ())
    : let interrupted := (ofCalls settings (calls ++ [call])).generation
      ∃ intake recorded,
        Intake.ofRulings
            (Intake.rulings generation.processed generation.injectables call.candidates)
          = .ok intake
        ∧ recorded <+: intake.accepted
        ∧ List.Forall₂ (fun injectable factory => Emission.factory? injectable = some factory) recorded
            (generation.taken call.write call.candidates call.store)
        ∧ interrupted.injectables.Perm (generation.injectables ++ recorded)
        ∧ interrupted.processed = generation.processed
        ∧ interrupted.deferred = generation.deferred
        ∧ (recorded = []
          → (again.reply interrupted).result = (again.reply generation).result
            ∧ (again.reply interrupted).state.1
              = { (again.reply generation).state.1 with
                  rounds := (again.reply generation).state.1.rounds + 1 }
            ∧ (again.reply interrupted).state.2 = (again.reply generation).state.2
            ∧ ((∀ injectable ∈ intake.accepted, (Emission.factory? injectable).isSome = true)
              → ∃ round, (again.reply interrupted).result = .ok round))
        ∧ (recorded ≠ []
          → ∃ diagnostics,
              (again.reply interrupted).result = .error (.invalid diagnostics)
              ∧ List.Forall₂ (Ruling.SelfDuplicate (generation.looksAt call.candidates)) recorded
                  diagnostics) := by
  obtain ⟨intake, recorded, ruled, front, made, state⟩ :=
    Generation.exists_recorded_taken failed valid
  have left
      : (ofCalls settings (calls ++ [call])).generation
        = recorded.foldl Generation.accept generation.begin := by
    rw [← state, ← reached, ofCalls_append]
    rfl
  have takes : Intake.Takes generation.injectables (generation.looksAt call.candidates) intake :=
    Intake.takes_of_ofRulings ruled
  have perm
      : (recorded.foldl Generation.accept generation.begin).injectables.Perm
          (generation.injectables ++ recorded) :=
    Generation.foldl_accept_perm
      (fun injectable member => takes.fresh injectable (front.subset member))
      (takes.distinct.sublist (front.sublist.map Injectable.target))
  have distinct
      : ((recorded.foldl Generation.accept generation.begin).injectables.map
          Injectable.target).Nodup := by
    have sound := (Sound.start settings).foldl_next (calls ++ [call])
    rw [← left]
    exact Ascending.nodup_map sound.made.ascending
  dsimp only
  rw [left, RoundCall.reply, RoundCall.reply, same]
  refine ⟨intake, recorded, ruled, front, made, perm, ?_, ?_, ?_, ?_⟩
  · rw [Generation.foldl_accept]
    rfl
  · rw [Generation.foldl_accept]
    rfl
  · rintro rfl
    obtain ⟨result, state⟩ := generation.round_begin again.write call.candidates again.store
    rw [List.foldl_nil, result, state]
    exact ⟨rfl, rfl, rfl, Generation.exists_round_of_accepting accepts ruled⟩
  · exact Generation.round_of_recorded ruled front perm distinct

/-- A store that has room for so many artifacts. -/
private def withRoom : Writer Nat :=
  fun room artifact =>
    match room with
    | 0 => .failed 0 (.inputOutput artifact.relativePath)
    | room + 1 => .done room ()

/-- A client and a socket, as a round sees them. -/
private def clientAndSocketCandidates : List Candidate :=
  [clientCandidate (some [socket]), ⟨Workplace.constructorOf "Socket" [] 5, some socket, some []⟩]

/-- A call into memory, which takes everything. -/
private def clientAndSocketCall : RoundCall :=
  ⟨MemoryStore.write, clientAndSocketCandidates, {}⟩

/-- A call into a store with room for some artifacts only. -/
private def clientAndSocketCallWithRoom (room : Nat) : RoundCall :=
  ⟨withRoom, clientAndSocketCandidates, room⟩

/-- The call into memory succeeds. -/
private theorem exists_round_clientAndSocketCall
    : ∃ round, (clientAndSocketCall.reply (ofCalls {} []).generation).result = .ok round := by
  have done
      : (clientAndSocketCall.reply (ofCalls {} []).generation).result.toOption.isSome = true := by
    decide +kernel
  obtain ⟨round, done⟩ := Option.isSome_iff_exists.mp done
  exact ⟨round, eq_ok_of_toOption_eq_some done⟩

/-- The others fail, over the first factory or over the second one. -/
private theorem result_clientAndSocketCallWithRoom
    : ((clientAndSocketCallWithRoom 0).reply (ofCalls {} []).generation).result
        = .error (.inputOutput ⟨"m/client_factory.rs"⟩)
      ∧ ((clientAndSocketCallWithRoom 1).reply (ofCalls {} []).generation).result
        = .error (.inputOutput ⟨"m/socket_factory.rs"⟩) := by
  decide +kernel

/-- Where there is no room at all, the round can be asked for again; where there is room for one
factory, it cannot. The number of factories taken is the number of injectables recorded.
-/
theorem ofCalls_interrupted_withRoom
    : (∃ round,
          (clientAndSocketCall.reply
              (ofCalls {} [clientAndSocketCallWithRoom 0]).generation).result
            = .ok round)
      ∧ ∃ diagnostics,
          (clientAndSocketCall.reply
              (ofCalls {} [clientAndSocketCallWithRoom 1]).generation).result
            = .error (.invalid diagnostics)
          ∧ diagnostics.length = 1 := by
  obtain ⟨noRoom, someRoom⟩ := result_clientAndSocketCallWithRoom
  have accepts (store : MemoryStore) (artifact : Artifact)
      : (clientAndSocketCall.write store artifact).result = .ok () :=
    rfl
  constructor
  · obtain ⟨_, recorded, _, _, made, _, _, _, retried, _⟩ :=
      ofCalls_interrupted clientAndSocketCall rfl noRoom (by simp) rfl accepts
    have nothing : recorded = [] := List.forall₂_nil_right_iff.mp made
    obtain ⟨round, done⟩ := exists_round_clientAndSocketCall
    exact ⟨round, (retried nothing).1.trans done⟩
  · obtain ⟨_, recorded, _, _, made, _, _, _, _, repeated⟩ :=
      ofCalls_interrupted clientAndSocketCall rfl someRoom (by simp) rfl accepts
    have number : recorded.length = 1 := made.length_eq.trans (by decide +kernel)
    obtain ⟨diagnostics, reported, each⟩ := repeated (List.ne_nil_of_length_eq_add_one number)
    exact ⟨diagnostics, reported, each.length_eq.symm.trans number⟩

/-- The client, whose factory was taken before the room was used up, is reported as a duplicate of its one
constructor, though the round would have succeeded in the first place.
-/
theorem ofCalls_duplicate_of_itself
    : (clientAndSocketCallWithRoom 1).candidates = clientAndSocketCall.candidates
      ∧ ((clientAndSocketCallWithRoom 1).reply (ofCalls {} []).generation).result
        = .error (.inputOutput ⟨"m/socket_factory.rs"⟩)
      ∧ (∀ store artifact, (clientAndSocketCall.write store artifact).result = .ok ())
      ∧ (∃ round, (clientAndSocketCall.reply (ofCalls {} []).generation).result = .ok round)
      ∧ (clientAndSocketCall.reply
            (ofCalls {} [clientAndSocketCallWithRoom 1]).generation).result
        = .error (.invalid
            [⟨.duplicateBinding, ⟨⟨"src/m.rs"⟩, 3⟩, "Client::new",
              "crate::m::Client already has an injectable constructor `new` at src/m.rs:3"⟩]) :=
  ⟨rfl, result_clientAndSocketCallWithRoom.2, fun _ _ => rfl, exists_round_clientAndSocketCall,
    by decide +kernel⟩

end History

end Wiring
