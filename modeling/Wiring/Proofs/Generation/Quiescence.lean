import Wiring.Proofs.Generation.Offers
import Wiring.Proofs.Generation.Progress
import Wiring.Proofs.Generation.Rejections

/-! Where a run gives up. As long as it may go on, it does so only after a round that made nothing: the
index then holds the factories of all injectables, and any further round would find the same
declarations open and make nothing either.
-/

namespace Wiring

-----------------------------------------------------------------------------------------
-- The index behind some rounds
-----------------------------------------------------------------------------------------

/-- Sources may be added at once or in two parts, by induction on the first part. -/
theorem Index.takeEach_append {index : Index} {sources more : List SourceFile}
    (taken : (index.takeEach sources).result = .ok ())
    (takenMore : ((index.takeEach sources).state.takeEach more).result = .ok ())
    : (index.takeEach (sources ++ more)).result = .ok ()
      ∧ (index.takeEach (sources ++ more)).state
        = ((index.takeEach sources).state.takeEach more).state := by
  induction sources generalizing index with
  | nil => exact ⟨takenMore, rfl⟩
  | cons source rest ih =>
      rw [takeEach] at taken takenMore
      obtain ⟨_, first, others, state⟩ := Reply.andThen_eq_ok taken
      rw [state] at takenMore
      rw [List.cons_append, takeEach, takeEach, state, (Reply.andThen_of_ok first).1,
        (Reply.andThen_of_ok first).2]
      exact ih others takenMore

/-- A round finds the index with the factories of all rounds before it added as sources, by induction
on these.
-/
theorem Course.takeEach {settings : Settings} {start index : Index} {turns : List Turn}
    {generation : Generation} (course : Course settings start turns index generation)
    : (start.takeEach ((turns.flatMap Turn.factories).map Artifact.source)).result = .ok ()
      ∧ (start.takeEach ((turns.flatMap Turn.factories).map Artifact.source)).state = index := by
  induction course with
  | start => exact ⟨rfl, rfl⟩
  | turn _ _ taken ih =>
      obtain ⟨done, state⟩ := ih
      rw [List.flatMap_append, List.flatMap_singleton, List.map_append, ← state]
      rw [← state] at taken
      exact Index.takeEach_append done taken

-----------------------------------------------------------------------------------------
-- A round that makes nothing
-----------------------------------------------------------------------------------------

/-- A candidate that is not resolved lacks its owner or its parameters. -/
theorem Candidate.unknown_of_injectable? {candidate : Candidate}
    (unresolved : candidate.injectable? = none)
    : candidate.owner = none ∨ candidate.parameters = none := by
  unfold injectable? at unresolved
  cases owner : candidate.owner with
  | none => exact .inl rfl
  | some target =>
      cases parameters : candidate.parameters with
      | none => exact .inr rfl
      | some types => simp [owner, parameters] at unresolved

/-- Whatever is known, candidates with nothing wrong are deferred while a type of theirs is unknown, by
induction on them.
-/
theorem Ruling.all_of_unresolved (known : List Injectable) {candidates : List Candidate}
    (plain : ∀ candidate ∈ candidates, candidate.marked.fault? = none)
    (unresolved : ∀ candidate ∈ candidates, candidate.injectable? = none)
    : all known candidates = candidates.map fun candidate => .deferred candidate.marked := by
  induction candidates with
  | nil => rfl
  | cons candidate rest ih =>
      obtain ⟨plain, plainRest⟩ := List.forall_mem_cons.mp plain
      obtain ⟨unresolved, unresolvedRest⟩ := List.forall_mem_cons.mp unresolved
      have decided : on known candidate = .deferred candidate.marked := by
        rw [on_eq, plain, unresolved]
      rw [all, decided, List.map_cons]
      exact congrArg _ (ih plainRest unresolvedRest)

/-- A round that looks at candidates with nothing wrong, and with a type unknown each, makes nothing and
defers them all, whatever its store.
-/
theorem Generation.round_of_unresolved {σ : Type} {generation : Generation}
    {candidates left : List Candidate} (looked : generation.looksAt candidates = left)
    (plain : ∀ candidate ∈ left, candidate.marked.fault? = none)
    (unresolved : ∀ candidate ∈ left, candidate.injectable? = none) (write : Writer σ) (store : σ)
    : (generation.round write candidates store).result = .ok ⟨[], left.map Candidate.marked⟩
      ∧ (generation.round write candidates store).state
        = (generation.begin.settle candidates (left.map Candidate.marked), store) := by
  have rulings
      : Intake.rulings generation.begin.processed generation.begin.injectables candidates
        = left.map fun candidate => .deferred candidate.marked :=
    (congrArg _ looked).trans (Ruling.all_of_unresolved _ plain unresolved)
  have ruled
      : Intake.ofRulings
          (Intake.rulings generation.begin.processed generation.begin.injectables candidates)
        = .ok ⟨[], left.map Candidate.marked⟩ := by
    rw [rulings]
    simp [Intake.ofRulings, List.filterMap_map, Function.comp_def, Ruling.diagnostic?,
      Ruling.accepted?, Ruling.deferred?]
  rw [Generation.round, ruled]
  exact ⟨rfl, rfl⟩

namespace Turn.Follows

variable {turn : Turn} {generation : Generation}

/-- A turn without factories has accepted nothing, as there is one for each. -/
theorem accepted_of_nothing (follows : turn.Follows generation) (nothing : turn.factories = [])
    : turn.intake.accepted = [] :=
  List.forall₂_nil_right_iff.mp (nothing ▸ follows.made)

/-- What a round that makes nothing looks at has types that are not known. -/
theorem unresolved_of_nothing (follows : turn.Follows generation) (nothing : turn.factories = [])
    : ∀ candidate ∈ generation.looksAt turn.index.candidates, candidate.injectable? = none := by
  have accepted := follows.takes.accepted
  rw [follows.accepted_of_nothing nothing] at accepted
  exact List.filterMap_eq_nil_iff.mp accepted.symm

/-- A round that makes nothing defers all that it looks at. -/
theorem deferred_of_nothing (follows : turn.Follows generation) (nothing : turn.factories = [])
    : turn.intake.deferred = (generation.looksAt turn.index.candidates).map Candidate.marked := by
  have unresolved := follows.unresolved_of_nothing nothing
  rw [follows.takes.deferred]
  refine congrArg _ (List.filter_eq_self.mpr fun candidate looked => ?_)
  rw [unresolved candidate looked]
  rfl

/-- Behind a round that makes nothing, the next one looks at the same candidates. All that it looked at
is deferred, so no key is done with that was not before.
-/
theorem looksAt_of_nothing (follows : turn.Follows generation) (nothing : turn.factories = [])
    : (turn.next generation).looksAt turn.index.candidates
      = generation.looksAt turn.index.candidates := by
  have deferred := follows.deferred_of_nothing nothing
  refine List.filter_congr fun candidate member => Bool.eq_iff_iff.mpr ?_
  have known : candidate.marked.key ∈ turn.index.marked.map Marked.key := by
    obtain ⟨marked, present, rfl⟩ := List.mem_map.mp member
    exact List.mem_map_of_mem present
  have shared : candidate.marked.key ∈ turn.intake.deferred.map Marked.key
      ↔ candidate.marked.key ∉ generation.processed := by
    rw [deferred, List.map_map, List.mem_map]
    constructor
    · rintro ⟨other, looked, same⟩
      have unprocessed := (List.mem_filter.mp looked).2
      rw [Function.comp_apply] at same
      rw [← same]
      simpa using unprocessed
    · intro unprocessed
      exact ⟨candidate, List.mem_filter.mpr ⟨member, by simpa using unprocessed⟩, rfl⟩
  calc (!(turn.next generation).processed.contains candidate.marked.key) = true
    _ ↔ candidate.marked.key ∉ (turn.next generation).processed := by simp
    _ ↔ candidate.marked.key ∈ turn.intake.deferred.map Marked.key := by
        rw [Turn.mem_processed_next]
        exact ⟨fun open_ => not_not.mp fun apart => open_ ⟨known, apart⟩, fun left passed => passed.2 left⟩
    _ ↔ (!generation.processed.contains candidate.marked.key) = true := by
        rw [shared]
        simp

/-- Behind a round that makes nothing, a further one makes nothing and defers the same, whatever its
store.
-/
theorem round_of_nothing (follows : turn.Follows generation) (nothing : turn.factories = [])
    {σ : Type} (write : Writer σ) (store : σ)
    : ((turn.next generation).round write turn.index.candidates store).result
        = .ok ⟨[], turn.intake.deferred⟩
      ∧ ((turn.next generation).round write turn.index.candidates store).state
        = ((turn.next generation).begin, store) := by
  obtain ⟨result, state⟩ :=
    Generation.round_of_unresolved (follows.looksAt_of_nothing nothing) follows.takes.plain
      (follows.unresolved_of_nothing nothing) write store
  rw [← follows.deferred_of_nothing nothing] at result state
  exact ⟨result, state⟩

end Turn.Follows

-----------------------------------------------------------------------------------------
-- Giving up
-----------------------------------------------------------------------------------------

namespace Workplace

variable {σ : Type} {write : Writer σ} {settings : Settings} {index : Index}

/-- A generation has come to a standstill before the index `last`, which began as `index`. -/
structure Standstill (settings : Settings) (index : Index) (generation : Generation) (last : Index)
    : Prop where
  /-- The index has grown by the factories of all injectables, each added as a source. -/
  sources
    : ∃ order factories,
        order.Perm generation.injectables
        ∧ List.Forall₂ (fun injectable factory => Emission.factory? injectable = some factory) order
            factories
        ∧ (index.takeEach (factories.map Artifact.source)).result = .ok ()
        ∧ (index.takeEach (factories.map Artifact.source)).state = last
  /-- The index marks what is deferred, and knows the owner or a parameter of it not yet. -/
  deferred
    : ∀ marked ∈ generation.deferred,
        marked ∈ index.marked
        ∧ marked ∈ last.marked
        ∧ marked.WellShaped
        ∧ (last.ownerType? marked = none ∨ last.parameterTypes? marked = none)
  /-- All else that was marked at the beginning has been recorded in some round. -/
  recorded
    : ∃ turns before,
        Course settings index turns last before
        ∧ ∀ marked ∈ index.marked,
            marked ∉ generation.deferred
            → ∃ turn ∈ turns, ∃ injectable ∈ generation.injectables, turn.Records marked injectable
  /-- A further round makes nothing and changes nothing but the number of rounds. -/
  final
    : ∀ {σ : Type} (write : Writer σ) (store : σ),
        (generation.round write last.candidates store).result = .ok ⟨[], generation.deferred⟩
        ∧ (generation.round write last.candidates store).state = (generation.begin, store)

/-- It has so behind a round that makes nothing. Whatever is not deferred was recorded in an earlier
round, and what is deferred is well shaped with a type unknown.
-/
theorem standstill_of_nothing {turns : List Turn} {last : Turn} {before : Generation}
    (course : Course settings index turns last.index before) (follows : last.Follows before)
    (nothing : last.factories = [])
    : Standstill settings index (last.next before) last.index := by
  obtain ⟨more, grown, objected⟩ := course.grown.marked
  have kept : (last.next before).injectables.Perm before.injectables := by
    have perm := follows.injectables_perm
    rw [follows.accepted_of_nothing nothing, List.append_nil] at perm
    exact perm
  refine ⟨?_, ?_, ⟨turns, before, course, ?_⟩, follows.round_of_nothing nothing⟩
  · obtain ⟨taken, state⟩ := course.takeEach
    exact ⟨_, _, course.kept.injectables.symm.trans kept.symm, course.made, taken, state⟩
  · intro marked deferred
    have present : marked ∈ index.marked := by
      have left := deferred
      rw [Turn.next, Generation.settle, follows.deferred_eq grown objected] at left
      exact (Generation.mem_unsettled.mp (List.mem_of_mem_filter left)).1
    have among : marked ∈ last.index.marked := by
      rw [grown]
      exact List.mem_append_left more present
    rw [Turn.next, Generation.settle, follows.deferred_of_nothing nothing] at deferred
    obtain ⟨candidate, looked, rfl⟩ := List.mem_map.mp deferred
    obtain ⟨marked, _, rfl⟩ := List.mem_map.mp (List.mem_of_mem_filter looked)
    exact ⟨present, among, Marked.fault?_eq_none_iff.mp (follows.takes.plain _ looked),
      Candidate.unknown_of_injectable? (follows.unresolved_of_nothing nothing _ looked)⟩
  · intro marked present settled
    rcases course.recorded_or_unsettled present with ⟨turn, member, injectable, records⟩ | unsettled
    · refine ⟨turn, member, injectable, kept.mem_iff.mpr ?_, records⟩
      exact course.kept.injectables.mem_iff.mpr
        (List.mem_flatMap.mpr ⟨turn, member, records.accepted⟩)
    · rcases follows.records_or_defers grown objected unsettled with ⟨_, records⟩ | deferred
      · have accepted := records.accepted
        rw [follows.accepted_of_nothing nothing] at accepted
        contradiction
      · exact absurd deferred settled

/-- A run that gives up on declarations while it might have gone on has come to a standstill, and lists
what is deferred then. This is so with every store that has not itself refused an artifact in the same
words. A run that stops before the last round allowed has left nothing or made nothing, and here
something is left.
-/
theorem run_gives_up_at_standstill {store : σ} {count : Nat} {declarations : List (String × Location)}
    (own : ¬ StopsIn write store (offered settings index) (.unresolved count declarations))
    (failed
      : (run write ⟨{ settings }, index, store⟩).result = .error (.unresolved count declarations))
    (early : count < settings.maxRounds)
    : ∃ generation last,
        (run write ⟨{ settings }, index, store⟩).state.generation = generation
        ∧ (run write ⟨{ settings }, index, store⟩).state.index = last
        ∧ generation.deferred ≠ []
        ∧ declarations = generation.deferred.map (fun marked => (marked.text, marked.location))
        ∧ Standstill settings index generation last := by
  -- A store that keeps everything sees the same run.
  obtain ⟨rest, artifacts, full, ⟨after, _, state, same⟩ | ⟨failure, stops, result⟩⟩ :=
    keepsPace_run ({ settings }, index) [] store
  · have gaveUp := same.symm.trans failed
    obtain ⟨further, last, before, course, follows, left, open_, rfl, listed⟩ :=
      run_eq_unresolved (by rintro ⟨_, _, refused⟩; contradiction) gaveUp
    have nothing : last.factories = [] := (left.ends (by omega)).resolve_left open_
    have generation : rest.1 = last.next before := by
      rw [← left.generation]
      exact (congrArg Workplace.generation full).symm
    have reached : rest.2 = last.index := by
      rw [← left.index]
      exact (congrArg Workplace.index full).symm
    refine ⟨last.next before, last.index, ?_, ?_, open_, listed,
      standstill_of_nothing course follows nothing⟩
    · rw [← generation]
      exact congrArg Workplace.generation state
    · rw [← reached]
      exact congrArg Workplace.index state
  · obtain rfl := Except.error.inj (result.symm.trans failed)
    have kept : offered settings index = artifacts := congrArg Workplace.store full
    exact absurd (kept ▸ stops) own

/-- Witness: the client is reported in the second round, long before the last one allowed. -/
theorem run_gives_up_at_standstill_strandedClient
    : let reply := run MemoryStore.write ⟨{ settings := {} }, socketAndStrandedClient, {}⟩
      reply.result = .error (.unresolved 2 [("Client::new", ⟨⟨"src/m.rs"⟩, 3⟩)])
        ∧ 2 < ({} : Settings).maxRounds
        ∧ reply.state.generation.deferred.map Marked.text = ["Client::new"]
        ∧ Standstill {} socketAndStrandedClient reply.state.generation reply.state.index := by
  have own
      : ¬ StopsIn MemoryStore.write {} (offered {} socketAndStrandedClient)
          (.unresolved 2 [("Client::new", ⟨⟨"src/m.rs"⟩, 3⟩)]) := by
    rintro ⟨_, _, _, _, _, refused⟩
    contradiction
  have early : 2 < ({} : Settings).maxRounds := by decide
  obtain ⟨_, _, rfl, rfl, _, listed, standstill⟩ :=
    run_gives_up_at_standstill own run_socketAndStrandedClient early
  have texts := congrArg (List.map Prod.fst) listed
  rw [List.map_map] at texts
  exact ⟨run_socketAndStrandedClient, early, texts.symm, standstill⟩

end Workplace

end Wiring
