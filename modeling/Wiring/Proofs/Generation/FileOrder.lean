import Wiring.Proofs.Generation.Accounting
import Wiring.Proofs.Index.Rearranged

/-! Generation from files in another order. Two runs over rearranged indexes keep step with each other:
each round accepts and defers the same declarations, in some order, so the same factories come back as
sources of the next one; and what is kept is kept in an order of its own.
-/

namespace Wiring

open Index

-----------------------------------------------------------------------------------------
-- Rulings
-----------------------------------------------------------------------------------------

/-- Flawless candidates under new targets of their own are all valid, by induction on the candidates. -/
theorem Ruling.diagnostics_eq_nil {known : List Injectable} {candidates : List Candidate}
    (plain : ∀ candidate ∈ candidates, candidate.marked.fault? = none)
    (fresh
      : ∀ injectable ∈ candidates.filterMap Candidate.injectable?, ∀ earlier ∈ known,
          earlier.target ≠ injectable.target)
    (distinct : ((candidates.filterMap Candidate.injectable?).map Injectable.target).Nodup)
    : (all known candidates).filterMap diagnostic? = [] := by
  induction candidates generalizing known with
  | nil => rfl
  | cons candidate rest ih =>
      obtain ⟨here, plain⟩ := List.forall_mem_cons.mp plain
      have decided := decides_on known candidate
      unfold all
      generalize on known candidate = ruling at decided ⊢
      cases decided with
      | flawed fault => exact absurd (here.symm.trans fault) (by simp)
      | deferred _ unknown =>
          rw [List.filterMap_cons_none unknown] at fresh distinct
          exact ih plain fresh distinct
      | duplicate _ resolved earlier same =>
          rw [List.filterMap_cons_some resolved] at fresh
          exact absurd same (fresh _ List.mem_cons_self _ earlier)
      | @accepted injectable _ resolved _ =>
          rw [List.filterMap_cons_some resolved] at fresh distinct
          obtain ⟨apart, distinct⟩ := List.nodup_cons.mp distinct
          refine ih plain (fun later member earlier taken => ?_) distinct
          rcases List.mem_append.mp taken with taken | last
          · exact fresh later (List.mem_cons_of_mem _ member) earlier taken
          · rw [List.mem_singleton.mp last]
            intro same
            exact apart (List.mem_map.mpr ⟨later, member, same.symm⟩)

/-- Candidates in another order, in scopes of other numbers, are taken in as well. Candidates are
looked at one by one, except for targets that meet, and no order makes two targets meet.
-/
theorem Intake.exists_of_perm {known : List Injectable} {candidates others : List Candidate}
    {intake : Intake} (valid : ofRulings (Ruling.all known candidates) = .ok intake)
    (perm : (candidates.map Candidate.unnumbered).Perm (others.map Candidate.unnumbered))
    : ∃ other,
        ofRulings (Ruling.all known others) = .ok other
        ∧ intake.accepted.Perm other.accepted
        ∧ (intake.deferred.map (Marked.atScope · 0)).Perm (other.deferred.map (Marked.atScope · 0)) := by
  have takes := takes_of_ofRulings valid
  -- Neither faults nor types depend on the number of the scope.
  have plain (candidates : List Candidate)
      : (∀ candidate ∈ candidates, candidate.marked.fault? = none)
        ↔ ∀ candidate ∈ candidates.map Candidate.unnumbered, candidate.marked.fault? = none := by
    rw [List.forall_mem_map]
    rfl
  have injectables (candidates : List Candidate)
      : candidates.filterMap Candidate.injectable?
        = (candidates.map Candidate.unnumbered).filterMap Candidate.injectable? := by
    rw [List.filterMap_map]
    rfl
  have deferred (candidates : List Candidate)
      : ((candidates.filter fun candidate => candidate.injectable?.isNone).map
            Candidate.marked).map (Marked.atScope · 0)
        = ((candidates.map Candidate.unnumbered).filter fun candidate =>
            candidate.injectable?.isNone).map Candidate.marked := by
    rw [List.filter_map, List.map_map, List.map_map]
    rfl
  have accepted : intake.accepted.Perm (others.filterMap Candidate.injectable?) := by
    rw [takes.accepted, injectables candidates, injectables others]
    exact perm.filterMap _
  obtain ⟨other, validOther⟩ : ∃ other, ofRulings (Ruling.all known others) = .ok other := by
    have none : (Ruling.all known others).filterMap Ruling.diagnostic? = [] := by
      refine Ruling.diagnostics_eq_nil ((plain others).mpr fun candidate member => ?_) ?_ ?_
      · exact (plain candidates).mp takes.plain candidate (perm.mem_iff.mpr member)
      · exact fun injectable member => takes.fresh injectable (accepted.mem_iff.mpr member)
      · exact (accepted.map Injectable.target).nodup_iff.mp takes.distinct
    rw [ofRulings, none]
    exact ⟨_, rfl⟩
  have takesOther := takes_of_ofRulings validOther
  refine ⟨other, validOther, ?_, ?_⟩
  · rw [takesOther.accepted]
    exact accepted
  · rw [takes.deferred, takesOther.deferred, deferred candidates, deferred others]
    exact (perm.filter _).map _

-----------------------------------------------------------------------------------------
-- Outcomes
-----------------------------------------------------------------------------------------

/-- Failures less what they say. -/
inductive FailureKind
  | invalid
  | unresolved
  | cycle
  | clash
  | unparsable
  | inputOutput
  | manifest
  | settings
  | notAnIdentifier
  deriving DecidableEq, Repr

/-- The kind of a failure. -/
def Failure.kind : Failure → FailureKind
  | invalid _ => .invalid
  | unresolved _ _ => .unresolved
  | cycle _ => .cycle
  | clash _ _ _ => .clash
  | unparsable _ => .unparsable
  | inputOutput _ => .inputOutput
  | manifest => .manifest
  | settings _ => .settings
  | notAnIdentifier => .notAnIdentifier

namespace Reply

/-- Both steps fail, over the same kind of thing, or both succeed with states and answers that are
related.
-/
def Agrees {σ α β : Type} (related : σ → α → σ → β → Prop) (first : Reply σ α) (second : Reply σ β)
    : Prop :=
  (∃ failure other,
      first.result = .error failure ∧ second.result = .error other ∧ other.kind = failure.kind)
  ∨ ∃ answer other,
      first.result = .ok answer
      ∧ second.result = .ok other
      ∧ related first.state answer second.state other

namespace Agrees

variable {σ τ α β γ δ : Type} {related : σ → α → σ → β → Prop} {first : Reply σ α}
  {second : Reply σ β}

/-- Steps that are done agree on related values. -/
theorem done {state other : σ} {value : α} {otherValue : β}
    (holds : related state value other otherValue)
    : Agrees related (.done state value) (.done other otherValue) :=
  .inr ⟨value, otherValue, rfl, rfl, holds⟩

/-- A step agrees with itself, where the relation holds of it. -/
theorem refl {related : σ → α → σ → α → Prop} (reply : Reply σ α)
    (holds : ∀ state answer, related state answer state answer)
    : Agrees related reply reply := by
  cases ended : reply.result with
  | error failure => exact .inl ⟨failure, failure, ended, ended, rfl⟩
  | ok answer => exact .inr ⟨answer, answer, ended, ended, holds _ answer⟩

/-- Steps that agree and go on in agreement agree as a whole. -/
theorem andThen {next : σ → α → Reply σ γ} {nextOther : σ → β → Reply σ δ}
    {relatedNext : σ → γ → σ → δ → Prop} (agrees : Agrees related first second)
    (goOn
      : ∀ state answer stateOther other, related state answer stateOther other
        → Agrees relatedNext (next state answer) (nextOther stateOther other))
    : Agrees relatedNext (first.andThen next) (second.andThen nextOther) := by
  rcases agrees with ⟨failure, other, failed, failedOther, kind⟩ | ⟨answer, other, ok, okOther, holds⟩
  · exact .inl ⟨failure, other, andThen_of_error failed, andThen_of_error failedOther, kind⟩
  · unfold Agrees
    rw [(andThen_of_ok ok).1, (andThen_of_ok okOther).1, (andThen_of_ok ok).2,
      (andThen_of_ok okOther).2]
    exact goOn _ answer _ other holds

/-- Mapped steps agree if the maps keep the relation. -/
theorem map {f : α → γ} {g : β → δ} {relatedNext : σ → γ → σ → δ → Prop}
    (agrees : Agrees related first second)
    (holds
      : ∀ state answer stateOther other, related state answer stateOther other
        → relatedNext state (f answer) stateOther (g other))
    : Agrees relatedNext (first.map f) (second.map g) := by
  rcases agrees with ⟨failure, other, failed, failedOther, kind⟩ | ⟨answer, other, ok, okOther, keeps⟩
  · exact .inl ⟨failure, other, by simp [Reply.map, failed, Except.map],
      by simp [Reply.map, failedOther, Except.map], kind⟩
  · exact .inr ⟨f answer, g other, by simp [Reply.map, ok, Except.map],
      by simp [Reply.map, okOther, Except.map], holds _ answer _ other keeps⟩

/-- So do steps about larger states. -/
theorem lift {f g : σ → τ} {relatedNext : τ → α → τ → β → Prop}
    (agrees : Agrees related first second)
    (holds
      : ∀ state answer stateOther other, related state answer stateOther other
        → relatedNext (f state) answer (g stateOther) other)
    : Agrees relatedNext (first.lift f) (second.lift g) := by
  rcases agrees with failed | ⟨answer, other, ok, okOther, keeps⟩
  · exact .inl failed
  · exact .inr ⟨answer, other, ok, okOther, holds _ answer _ other keeps⟩

end Agrees

end Reply

-----------------------------------------------------------------------------------------
-- Rounds in step
-----------------------------------------------------------------------------------------

/-- The generations have come to the same, but for the order in which they look at declarations. -/
structure Generation.Matches (first second : Generation) : Prop where
  settings : second.settings = first.settings
  injectables : second.injectables = first.injectables
  processed : ∀ key, key ∈ second.processed ↔ key ∈ first.processed
  deferred : (first.deferred.map (Marked.atScope · 0)).Perm (second.deferred.map (Marked.atScope · 0))
  rounds : second.rounds = first.rounds

/-- The workplaces hold the same, but for order. -/
structure Workplace.InStep (first second : Workplace MemoryStore) : Prop where
  generation : first.generation.Matches second.generation
  index : Rearranged first.index second.index
  wellScoped : first.index.WellScoped
  wellScopedSecond : second.index.WellScoped
  store : second.store = first.store

namespace Generation

variable {first second : Generation} {index other : Index}

/-- Both rounds look at the same candidates. -/
theorem Matches.looked_perm (agree : first.Matches second) (rearranged : Rearranged index other)
    : ((index.candidates.filter fun candidate =>
            !first.processed.contains candidate.marked.key).map Candidate.unnumbered).Perm
        ((other.candidates.filter fun candidate =>
            !second.processed.contains candidate.marked.key).map Candidate.unnumbered) := by
  have filtered (processed : List String) (candidates : List Candidate)
      : (candidates.filter fun candidate => !processed.contains candidate.marked.key).map
            Candidate.unnumbered
        = (candidates.map Candidate.unnumbered).filter fun candidate =>
            !processed.contains candidate.marked.key := by
    rw [List.filter_map]
    rfl
  have keys (key : String) : second.processed.contains key = first.processed.contains key := by
    rw [Bool.eq_iff_iff, List.contains_iff_mem, List.contains_iff_mem]
    exact agree.processed key
  simp only [filtered, keys]
  exact rearranged.candidates_perm.filter _

/-- What one round takes in, the other one does too. -/
theorem Matches.exists_intake (agree : first.Matches second) (rearranged : Rearranged index other)
    {intake : Intake}
    (ruled
      : Intake.ofRulings (Intake.rulings first.processed first.injectables index.candidates)
        = .ok intake)
    : ∃ otherIntake,
        Intake.ofRulings (Intake.rulings second.processed second.injectables other.candidates)
          = .ok otherIntake
        ∧ intake.accepted.Perm otherIntake.accepted
        ∧ (intake.deferred.map (Marked.atScope · 0)).Perm
            (otherIntake.deferred.map (Marked.atScope · 0)) := by
  rw [agree.injectables]
  exact Intake.exists_of_perm ruled (agree.looked_perm rearranged)

/-- A generation matches itself. -/
theorem Matches.refl (generation : Generation) : generation.Matches generation :=
  ⟨rfl, rfl, fun _ => Iff.rfl, .refl _, rfl⟩

/-- Matching is symmetric, field by field. -/
theorem Matches.symm (agree : first.Matches second) : second.Matches first :=
  ⟨agree.settings.symm, agree.injectables.symm, fun key => (agree.processed key).symm,
    agree.deferred.symm, agree.rounds.symm⟩

end Generation

/-- Lists of one length are both empty or neither is. -/
theorem isEmpty_eq_of_length_eq {α : Type} {items others : List α}
    (same : items.length = others.length)
    : others.isEmpty = items.isEmpty := by
  rw [Bool.eq_iff_iff, List.isEmpty_iff_length_eq_zero, List.isEmpty_iff_length_eq_zero, same]

/-- Artifacts under names of their own may be written to memory in any order. -/
theorem MemoryStore.foldl_insert_perm {artifacts others : List Artifact}
    (perm : artifacts.Perm others)
    (distinct
      : ∀ first ∈ artifacts, ∀ second ∈ artifacts,
          first.qualifiedName = second.qualifiedName → first = second)
    (store : MemoryStore)
    : others.foldl insert store = artifacts.foldl insert store := by
  refine (perm.foldl_eq' (fun first member second memberSecond store => ?_) store).symm
  by_cases same : first.qualifiedName = second.qualifiedName
  · rw [distinct first member second memberSecond same]
  · simp only [insert, Catalog.insert, Catalog.insertInto_eq_insertBy]
    have apart : (second.qualifiedName, second).1 ≠ (first.qualifiedName, first).1 := Ne.symm same
    rw [Ascending.insertBy_comm apart]

namespace Turn.Follows

variable {turn later : Turn} {first second : Generation}

/-- The factories of a round are told apart by their names. -/
theorem factories_distinct (follows : turn.Follows first)
    : ∀ factory ∈ turn.factories, ∀ other ∈ turn.factories,
        factory.qualifiedName = other.qualifiedName → factory = other := by
  intro factory member other memberOther same
  obtain ⟨injectable, accepted, made⟩ := exists_of_forall₂ follows.made.flip member
  obtain ⟨injectableOther, acceptedOther, madeOther⟩ :=
    exists_of_forall₂ follows.made.flip memberOther
  have targets := target_eq_of_qualifiedName_eq madeOther made same
  have alone : injectable = injectableOther :=
    List.inj_on_of_nodup_map follows.takes.distinct accepted acceptedOther targets
  rw [alone, madeOther] at made
  exact (Option.some.inj made).symm

variable (follows : turn.Follows first) (followsLater : later.Follows second)
  (agree : first.Matches second) (rearranged : Rearranged turn.index later.index)

include follows followsLater agree rearranged

/-- Rounds over rearranged indexes take in the same. -/
theorem intake_perm
    : turn.intake.accepted.Perm later.intake.accepted
      ∧ (turn.intake.deferred.map (Marked.atScope · 0)).Perm
          (later.intake.deferred.map (Marked.atScope · 0)) := by
  obtain ⟨intake, ruled, accepted, deferred⟩ := agree.exists_intake rearranged follows.ruled
  obtain rfl := Except.ok.inj (followsLater.ruled.symm.trans ruled)
  exact ⟨accepted, deferred⟩

/-- Rounds over rearranged indexes make the same factories. -/
theorem factories_perm : turn.factories.Perm later.factories := by
  rw [eq_filterMap_of_forall₂ follows.made, eq_filterMap_of_forall₂ followsLater.made]
  exact (follows.intake_perm followsLater agree rearranged).1.filterMap _

/-- Rounds over rearranged indexes come to the same. The same injectables are accepted, and insertion
by target does not depend on their order.
-/
theorem matches_next : (turn.next first).Matches (later.next second) := by
  obtain ⟨accepted, deferred⟩ := follows.intake_perm followsLater agree rearranged
  obtain ⟨settings, rounds⟩ := turn.next_counted first
  obtain ⟨settingsLater, roundsLater⟩ := later.next_counted second
  have keys (declarations : List Marked)
      : declarations.map Marked.key = (declarations.map (Marked.atScope · 0)).map Marked.key := by
    rw [List.map_map]
    rfl
  have placed : (turn.index.marked.map (Marked.atScope · 0)).Perm
      (later.index.marked.map (Marked.atScope · 0)) := by
    have here := rearranged.placed.map Prod.fst
    rwa [Index.placed, Index.placed, List.map_map, List.map_map] at here
  refine ⟨?_, ?_, fun key => ?_, deferred, ?_⟩
  · rw [settings, settingsLater, agree.settings]
  · have kept (turn : Turn) (generation : Generation)
        : (turn.next generation).injectables
          = (turn.intake.accepted.foldl Generation.accept generation.begin).injectables :=
      rfl
    rw [kept, kept, Generation.foldl_accept, Generation.foldl_accept,
      Ascending.foldl_insertBy_perm accepted follows.takes.distinct]
    have begun : second.begin.injectables = first.begin.injectables := agree.injectables
    rw [begun]
  · rw [Turn.mem_processed_next, Turn.mem_processed_next, keys turn.index.marked,
      keys later.index.marked, keys turn.intake.deferred, keys later.intake.deferred,
      (placed.map Marked.key).mem_iff, (deferred.map Marked.key).mem_iff]
  · rw [rounds, roundsLater, agree.rounds]

end Turn.Follows

namespace Generation.Matches

variable {first second : Generation} {index other : Index} {store : MemoryStore}

/-- Where one round succeeds the other one does. -/
theorem exists_round (agree : first.Matches second) (rearranged : Rearranged index other)
    {round : Round}
    (done : (first.round MemoryStore.write index.candidates store).result = .ok round)
    : ∃ otherRound,
        (second.round MemoryStore.write other.candidates store).result = .ok otherRound := by
  obtain ⟨turn, rfl, follows, _⟩ := round_eq_ok done
  obtain ⟨intake, ruled, accepted, _⟩ := agree.exists_intake rearranged follows.ruled
  cases doneOther : (second.round MemoryStore.write other.candidates store).result with
  | ok otherRound => exact ⟨otherRound, rfl⟩
  | error failure =>
      rcases round_eq_error doneOther with ⟨_, _, invalid⟩ | ⟨_, found, valid, injectable, member, missing⟩
        | refused
      · rw [ruled] at invalid
        contradiction
      · obtain rfl := Except.ok.inj (ruled.symm.trans valid)
        obtain ⟨factory, _, made⟩ := exists_of_forall₂ follows.made (accepted.mem_iff.mpr member)
        rw [missing] at made
        contradiction
      · exact absurd refused MemoryStore.not_refuses

/-- Rounds that fail both do so over the same kind of thing. -/
theorem kind_eq (agree : first.Matches second) (rearranged : Rearranged index other)
    {failure otherFailure : Failure}
    (failed : (first.round MemoryStore.write index.candidates store).result = .error failure)
    (failedOther
      : (second.round MemoryStore.write other.candidates store).result = .error otherFailure)
    : otherFailure.kind = failure.kind := by
  rcases round_eq_error failed with ⟨_, rfl, invalid⟩ | ⟨rfl, _, valid, _⟩ | refused
  · rcases round_eq_error failedOther with ⟨_, rfl, _⟩ | ⟨_, _, valid, _⟩ | refused
    · rfl
    · obtain ⟨_, ruled, _⟩ := agree.symm.exists_intake rearranged.symm valid
      rw [invalid] at ruled
      contradiction
    · exact absurd refused MemoryStore.not_refuses
  · obtain ⟨_, ruled, _⟩ := agree.exists_intake rearranged valid
    rcases round_eq_error failedOther with ⟨_, _, invalid⟩ | ⟨rfl, _⟩ | refused
    · rw [ruled] at invalid
      contradiction
    · rfl
    · exact absurd refused MemoryStore.not_refuses
  · exact absurd refused MemoryStore.not_refuses

end Generation.Matches

namespace Workplace

/-- The rounds have come to the same state, and have made and left the same. -/
structure RoundsMatch (first : Workplace MemoryStore) (round : Round)
    (second : Workplace MemoryStore) (other : Round) : Prop where
  inStep : InStep first second
  emitted : round.emitted.Perm other.emitted
  deferred : other.deferred.isEmpty = round.deferred.isEmpty
  factories
    : ∀ factory ∈ round.emitted, ∃ injectable, Emission.factory? injectable = some factory

variable {first second : Workplace MemoryStore}

/-- A round over a rearranged index fails alike or does the same. Factories have names of their own, so
memory holds the same whatever their order.
-/
theorem InStep.round (inStep : InStep first second)
    : Reply.Agrees RoundsMatch (first.round MemoryStore.write)
        (second.round MemoryStore.write) := by
  obtain ⟨generation, index, store⟩ := first
  obtain ⟨generationSecond, indexSecond, storeSecond⟩ := second
  obtain ⟨agree, rearranged, wellScoped, wellScopedSecond, rfl⟩ := inStep
  cases done : (generation.round MemoryStore.write index.candidates storeSecond).result with
  | error failure =>
      cases doneSecond : (generationSecond.round MemoryStore.write indexSecond.candidates
          storeSecond).result with
      | error other => exact .inl ⟨failure, other, done, doneSecond, agree.kind_eq rearranged done doneSecond⟩
      | ok round =>
          obtain ⟨_, succeeds⟩ := agree.symm.exists_round rearranged.symm doneSecond
          rw [done] at succeeds
          contradiction
  | ok round =>
      obtain ⟨other, doneSecond⟩ := agree.exists_round rearranged done
      refine .inr ⟨round, other, done, doneSecond, ?_⟩
      obtain ⟨turn, rfl, follows, rfl, state, written⟩ := Generation.round_eq_ok done
      obtain ⟨later, rfl, followsLater, rfl, stateLater, writtenLater⟩ :=
        Generation.round_eq_ok doneSecond
      have factories := follows.factories_perm followsLater agree rearranged
      have deferred := (follows.intake_perm followsLater agree rearranged).2.length_eq
      refine ⟨⟨?_, rearranged, wellScoped, wellScopedSecond, ?_⟩, factories, ?_, ?_⟩
      · simp only [Workplace.round, Reply.lift, state, stateLater]
        exact follows.matches_next followsLater agree rearranged
      · simp only [Workplace.round, Reply.lift, MemoryStore.eq_of_written written,
          MemoryStore.eq_of_written writtenLater]
        exact MemoryStore.foldl_insert_perm factories follows.factories_distinct _
      · rw [List.length_map, List.length_map] at deferred
        exact isEmpty_eq_of_length_eq deferred
      · intro factory member
        obtain ⟨injectable, _, made⟩ := exists_of_forall₂ follows.made.flip member
        exact ⟨injectable, made⟩

/-- A factory imports nothing publicly. -/
theorem reexports_ofSource_factory {marker : String} {injectable : Injectable}
    {factory : Artifact} (made : Emission.factory? injectable = some factory)
    : (ofSource marker factory.source).reexports = [] := by
  unfold ofSource
  split
  · rename_i items read
    have added : ({ marker } : Index).add factory.source
        = .ok (ofFile marker factory.source.path factory.source.home items) := by
      rw [Index.add, read, ofFile]
    exact (grown_add made added).reexports
  · rfl

/-- The factories of rounds in step go back to both indexes, or to neither. Whether all of them can be
read does not depend on their order, and none of them imports anything publicly.
-/
theorem InStep.takeBack (inStep : InStep first second) {emitted others : List Artifact}
    (perm : emitted.Perm others)
    (factories : ∀ factory ∈ emitted, ∃ injectable, Emission.factory? injectable = some factory)
    : Reply.Agrees (fun workplace _ other _ => InStep workplace other) (first.takeBack emitted)
        (second.takeBack others) := by
  have sources := perm.map Artifact.source
  have wellScoped_ofSources {marker : String} (sources : List SourceFile)
      : ∀ index ∈ sources.map (ofSource marker), index.WellScoped :=
    List.forall_mem_map.mpr fun source _ => wellScoped_ofSource marker source
  by_cases readable : ∀ source ∈ emitted.map Artifact.source,
      (Source.Item.ofText? source.content).isSome = true
  · have readableOthers : ∀ source ∈ others.map Artifact.source,
        (Source.Item.ofText? source.content).isSome = true :=
      fun source member => readable source (sources.mem_iff.mpr member)
    obtain ⟨result, state⟩ := takeEach_eq_foldl first.index readable
    obtain ⟨resultOther, stateOther⟩ := takeEach_eq_foldl second.index readableOthers
    refine .inr ⟨(), (), result, resultOther, inStep.generation, ?_, ?_, ?_, inStep.store⟩
    · simp only [Workplace.takeBack, Reply.lift, state, stateOther, inStep.index.marker]
      refine inStep.index.foldl_append inStep.wellScoped inStep.wellScopedSecond (sources.map _)
        (wellScoped_ofSources _) fun home => ?_
      refine List.pairwise_map.mpr (List.pairwise_map.mpr ?_)
      refine List.pairwise_of_forall_mem_list fun factory member _ _ => .inl ?_
      obtain ⟨injectable, made⟩ := factories factory member
      rw [reexports_ofSource_factory made, List.filter_nil]
    · simp only [Workplace.takeBack, Reply.lift, state]
      exact (placed_foldl_append inStep.wellScoped (wellScoped_ofSources _)).2
    · simp only [Workplace.takeBack, Reply.lift, stateOther]
      exact (placed_foldl_append inStep.wellScopedSecond (wellScoped_ofSources _)).2
  · have fails (index : Index) {sources : List SourceFile} {source : SourceFile}
        (member : source ∈ sources)
        (unreadable : ¬ (Source.Item.ofText? source.content).isSome = true)
        : ∃ file, (index.takeEach sources).result = .error (.unparsable file) := by
      cases taken : (index.takeEach sources).result with
      | ok => exact absurd (read_of_takeEach taken source member) unreadable
      | error failure =>
          obtain ⟨file, rfl⟩ := takeEach_eq_error taken
          exact ⟨file, rfl⟩
    push Not at readable
    obtain ⟨source, member, unreadable⟩ := readable
    obtain ⟨file, failed⟩ := fails first.index member unreadable
    obtain ⟨other, failedOther⟩ :=
      fails second.index (sources.mem_iff.mp member) unreadable
    exact .inl ⟨_, _, failed, failedOther, rfl⟩

/-- Rounds keep step with each other, by induction on their number. -/
theorem InStep.rounds (inStep : InStep first second) (more : Nat)
    : Reply.Agrees (fun workplace _ other _ => InStep workplace other)
        (Workplace.rounds MemoryStore.write more first)
        (Workplace.rounds MemoryStore.write more second) := by
  induction more generalizing first second with
  | zero =>
      rw [Workplace.rounds, Workplace.rounds]
      exact inStep.round.map fun _ _ _ _ rounds => rounds.inStep
  | succ more ih =>
      rw [Workplace.rounds, Workplace.rounds]
      refine inStep.round.andThen fun workplace round other otherRound rounds => ?_
      have stops : (otherRound.deferred.isEmpty || !otherRound.progressed)
          = (round.deferred.isEmpty || !round.progressed) := by
        rw [rounds.deferred, Round.progressed, Round.progressed,
          isEmpty_eq_of_length_eq rounds.emitted.length_eq]
      rw [stops]
      split
      · exact .done rounds.inStep
      · exact (rounds.inStep.takeBack rounds.emitted rounds.factories).andThen
          fun _ _ _ _ inStep => ih inStep

/-- The end of a generation depends on nothing that order changes. Where nothing is deferred, only the
keys of processed declarations may differ, and the end looks at none.
-/
theorem finish_of_matches {first second : Generation}
    (agree : first.Matches second) (store : MemoryStore)
    : Reply.Agrees (fun state summary other otherSummary => other = state ∧ otherSummary = summary)
        (first.finish MemoryStore.write store) (second.finish MemoryStore.write store) := by
  have left : second.deferred.isEmpty = first.deferred.isEmpty := by
    have lengths := agree.deferred.length_eq
    rw [List.length_map, List.length_map] at lengths
    exact isEmpty_eq_of_length_eq lengths
  cases empty : first.deferred.isEmpty with
  | false =>
      have fails (generation : Generation) (left : generation.deferred.isEmpty = false)
          : ∃ declarations,
              (generation.finish MemoryStore.write store).result
                = .error (.unresolved generation.rounds declarations) := by
        rw [Generation.finish, Generation.obstacle?, if_neg (by simp [left])]
        exact ⟨_, rfl⟩
      obtain ⟨_, failed⟩ := fails first empty
      obtain ⟨_, failedSecond⟩ := fails second (left.trans empty)
      exact .inl ⟨_, _, failed, failedSecond, rfl⟩
  | true =>
      -- What is left to differ are the keys of processed declarations, which the end does not look at.
      rw [empty, List.isEmpty_iff] at left
      rw [List.isEmpty_iff] at empty
      have same : second.finish MemoryStore.write store = first.finish MemoryStore.write store := by
        obtain ⟨settings, injectables, _, _, rounds⟩ := agree
        obtain ⟨_, _, _, _, _⟩ := first
        obtain ⟨_, _, _, _, _⟩ := second
        dsimp only at settings injectables rounds left empty
        rw [settings, injectables, rounds, left, empty]
        rfl
      rw [same]
      exact .refl _ fun _ _ => ⟨rfl, rfl⟩

/-- Files in another order make no difference: the run fails over the same kind of thing, or succeeds with
the same summary and the same store.
-/
theorem run_of_perm {settings : Settings} {marker : String} {sources others : List SourceFile}
    (readable : ∀ source ∈ sources, (Source.Item.ofText? source.content).isSome = true)
    (perm : sources.Perm others) (distinct : (ofSources marker sources).homes.Nodup)
    (store : MemoryStore)
    : Reply.Agrees
        (fun workplace summary other otherSummary =>
          otherSummary = summary ∧ other.store = workplace.store)
        (run MemoryStore.write ⟨{ settings }, ofSources marker sources, store⟩)
        (run MemoryStore.write ⟨{ settings }, ofSources marker others, store⟩) := by
  have readableOthers : ∀ source ∈ others, (Source.Item.ofText? source.content).isSome = true :=
    fun source member => readable source (perm.mem_iff.mpr member)
  have inStep : InStep ⟨{ settings }, ofSources marker sources, store⟩
      ⟨{ settings }, ofSources marker others, store⟩ :=
    ⟨.refl _, rearranged_ofSources readable perm distinct, (placed_ofSources readable).2,
      (placed_ofSources readableOthers).2, rfl⟩
  rw [run, run]
  refine (inStep.rounds _).andThen fun workplace _ other _ inStep => ?_
  rw [inStep.store]
  refine (finish_of_matches inStep.generation workplace.store).lift ?_
  rintro _ _ _ _ ⟨rfl, rfl⟩
  exact ⟨rfl, rfl⟩

/-- A file whose type needs that of the other file. -/
private def needingFile : SourceFile :=
  ⟨⟨"src/a.rs"⟩, "crate::a", "struct A;impl A{#[inject]fn new(b:Arc<crate::b::B>)->Self{A}}"⟩

/-- The other file. -/
private def neededFile : SourceFile :=
  ⟨⟨"src/b.rs"⟩, "crate::b", "struct B;impl B{#[inject]fn new()->Self{B}}"⟩

/-- A constructor on the first line of a file. -/
private def constructorIn (path home owner : String) (scope : Nat) (parameters : List Parameter)
    : Marked :=
  { constructorOf owner parameters 1 with location := ⟨⟨path⟩, 1⟩, home, scope }

/-- The index of the two files in order. -/
private def twoFilesIndex : Index := {
  marker := "inject"
  scopes := [⟨"crate::a", []⟩, ⟨"crate::b", []⟩]
  declared := ["crate::a::A", "crate::b::B"]
  modules := ["crate::a", "crate", "crate::b", "crate"]
  marked := [
    constructorIn "src/a.rs" "crate::a" "A" 0 [⟨"b", .shared ⟨false, ["crate", "b", "B"]⟩⟩],
    constructorIn "src/b.rs" "crate::b" "B" 1 []
  ]
  files := [⟨"src/a.rs"⟩, ⟨"src/b.rs"⟩]
}

/-- What is recorded of them after one round. -/
private def twoFilesRecorded : Generation := {
  settings := {}
  injectables := [
    ⟨⟨"crate::a", "A"⟩, "new", [⟨"crate::b", "B"⟩], ⟨⟨"src/a.rs"⟩, 1⟩⟩,
    ⟨⟨"crate::b", "B"⟩, "new", [], ⟨⟨"src/b.rs"⟩, 1⟩⟩
  ]
  processed := ["src/a.rs:1#A::new", "src/b.rs:1#B::new"]
  rounds := 1
}

/-- Both files can be read, and make up that index. -/
private theorem ofSources_twoFiles
    : (∀ source ∈ [needingFile, neededFile], (Source.Item.ofText? source.content).isSome = true)
      ∧ ofSources "inject" [needingFile, neededFile] = twoFilesIndex := by
  decide +kernel

/-- Witness: with the files in the other order, the summary and the store are the same. -/
theorem run_of_perm_twoFiles
    : ∃ summary,
        (run MemoryStore.write
            ⟨{ settings := {} }, ofSources "inject" [needingFile, neededFile], {}⟩).result
          = .ok summary
        ∧ (run MemoryStore.write
            ⟨{ settings := {} }, ofSources "inject" [neededFile, needingFile], {}⟩).result
          = .ok summary
        ∧ (run MemoryStore.write
            ⟨{ settings := {} }, ofSources "inject" [neededFile, needingFile], {}⟩).state.store
          = (run MemoryStore.write
              ⟨{ settings := {} }, ofSources "inject" [needingFile, neededFile], {}⟩).state.store := by
  obtain ⟨readable, index⟩ := ofSources_twoFiles
  have settles : SettlesAtOnce twoFilesIndex twoFilesRecorded := by
    decide +kernel
  obtain ⟨summary, done, _⟩ := settles.run_eq_ok
  have distinct : (ofSources "inject" [needingFile, neededFile]).homes.Nodup := by
    rw [index]
    decide +kernel
  rw [← index] at done
  rcases @run_of_perm {} _ _ _ readable (.swap neededFile needingFile []) distinct {} with
    ⟨_, _, failed, _⟩ | ⟨_, _, ok, okOther, rfl, store⟩
  · exact absurd (failed.symm.trans done) (by simp)
  · exact ⟨_, ok, okOther, store⟩

end Workplace

end Wiring
