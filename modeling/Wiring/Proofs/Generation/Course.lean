import Wiring.Proofs.Answers
import Wiring.Proofs.Generation.Rulings
import Wiring.Proofs.Index.Growth
import Wiring.Proofs.OrderedInsertion
import Wiring.Proofs.Replies

/-! The course of a run: the rounds one after the other, each with the index that it looked at. A run
that succeeds has completed such a course, and one that reports invalid declarations has come to a
round whose rulings hold them.
-/

namespace Wiring

/-- The store after artifacts have been written to it one after the other. -/
inductive Written {σ : Type} (write : Writer σ) : σ → List Artifact → σ → Prop
  | none (store : σ) : Written write store [] store
  | first {store after artifact rest} (taken : (write store artifact).result = .ok ())
    (others : Written write (write store artifact).state rest after)
    : Written write store (artifact :: rest) after

/-- Artifacts may be written in two stages, by induction on the first. -/
theorem Written.append {σ : Type} {write : Writer σ} {store middle after : σ}
    {artifacts more : List Artifact} (first : Written write store artifacts middle)
    (second : Written write middle more after)
    : Written write store (artifacts ++ more) after := by
  induction first with
  | none => exact second
  | first taken _ ih => exact .first taken (ih second)

namespace Index

/-- Adding sources fails over a text alone, by induction on the sources. -/
theorem takeEach_eq_error {index : Index} {sources : List SourceFile} {failure : Failure}
    (failed : (index.takeEach sources).result = .error failure)
    : ∃ file, failure = .unparsable file := by
  induction sources generalizing index with
  | nil => contradiction
  | cons source rest ih =>
      rw [takeEach] at failed
      rcases Reply.andThen_eq_error failed with first | ⟨_, _, others⟩
      · unfold take add at first
        split at first
        · contradiction
        · rename_i fault refused
          split at refused
          · contradiction
          · obtain rfl := Except.error.inj refused
            exact ⟨source.path, (Except.error.inj first).symm⟩
      · exact ih others

end Index

-----------------------------------------------------------------------------------------
-- One round
-----------------------------------------------------------------------------------------

/-- Accepting injectables changes nothing but the injectables. -/
theorem Generation.foldl_accept (accepted : List Injectable) (generation : Generation)
    : accepted.foldl Generation.accept generation
      = { generation with
          injectables :=
            accepted.foldl
              (fun kept injectable => Ascending.insertBy Injectable.target injectable kept)
              generation.injectables } := by
  induction accepted generalizing generation with
  | nil => rfl
  | cons injectable rest ih =>
      rw [List.foldl_cons, List.foldl_cons, ih, Generation.accept, Injectable.insertInto_eq_insertBy]

/-- One round: the index it looked at, what it took in, and the factories it made. -/
structure Turn where
  index : Index
  intake : Intake
  factories : List Artifact

namespace Turn

/-- Whether the round is the one that follows in the generation. -/
structure Follows (turn : Turn) (generation : Generation) : Prop where
  ruled
    : Intake.ofRulings
        (Intake.rulings generation.processed generation.injectables turn.index.candidates)
      = .ok turn.intake
  made
    : List.Forall₂ (fun injectable factory => Emission.factory? injectable = some factory)
        turn.intake.accepted turn.factories

/-- The generation after the round. -/
def next (turn : Turn) (generation : Generation) : Generation :=
  (turn.intake.accepted.foldl Generation.accept generation.begin).settle turn.index.candidates
    turn.intake.deferred

/-- A round keeps the settings and counts itself. -/
theorem next_counted (turn : Turn) (generation : Generation)
    : (turn.next generation).settings = generation.settings
      ∧ (turn.next generation).rounds = generation.rounds + 1 := by
  rw [next, Generation.foldl_accept]
  exact ⟨rfl, rfl⟩

end Turn

/-- Whether the store may fail in this way when it is written to. -/
def Refuses {σ : Type} (write : Writer σ) (failure : Failure) : Prop :=
  ∃ store artifact, (write store artifact).result = .error failure

namespace Generation

variable {σ : Type} {write : Writer σ}

/-- A factory that is emitted was made and taken, and its descriptor is accepted. -/
theorem emit_eq_ok {injectable : Injectable} {generation : Generation} {store : σ}
    {factory : Artifact} (emitted : (emit write injectable generation store).result = .ok factory)
    : Emission.factory? injectable = some factory
      ∧ (write store factory).result = .ok ()
      ∧ (emit write injectable generation store).state
        = (generation.accept injectable, (write store factory).state) := by
  unfold emit at emitted ⊢
  cases made : Emission.factory? injectable with
  | none => simp [made, Reply.failed] at emitted
  | some artifact =>
      simp only [made] at emitted ⊢
      obtain ⟨_, written, told, state⟩ := Reply.andThen_eq_ok emitted
      obtain rfl := Except.ok.inj told
      exact ⟨rfl, written, state⟩

/-- Emitting fails where the factory cannot be made or the store refuses it. -/
theorem emit_eq_error {injectable : Injectable} {generation : Generation} {store : σ}
    {failure : Failure}
    (refused : (emit write injectable generation store).result = .error failure)
    : failure = .notAnIdentifier ∧ Emission.factory? injectable = none ∨ Refuses write failure := by
  unfold emit at refused
  cases made : Emission.factory? injectable with
  | none =>
      simp only [made, Reply.failed, Except.error.injEq] at refused
      exact .inl ⟨refused.symm, rfl⟩
  | some artifact =>
      simp only [made] at refused
      rcases Reply.andThen_eq_error refused with written | ⟨_, _, told⟩
      · exact .inr ⟨store, artifact, written⟩
      · contradiction

/-- What has been emitted is made, written and accepted in order, by induction on the injectables. -/
theorem emitEach_eq_ok {injectables : List Injectable} {generation : Generation} {store : σ}
    {factories : List Artifact}
    (emitted : (emitEach write injectables generation store).result = .ok factories)
    : List.Forall₂ (fun injectable factory => Emission.factory? injectable = some factory)
        injectables factories
      ∧ (emitEach write injectables generation store).state.1
        = injectables.foldl accept generation
      ∧ Written write store factories (emitEach write injectables generation store).state.2 := by
  induction injectables generalizing generation store factories with
  | nil =>
      obtain rfl := Except.ok.inj emitted
      exact ⟨.nil, rfl, .none store⟩
  | cons injectable rest ih =>
      rw [emitEach] at emitted ⊢
      obtain ⟨factory, first, others, state⟩ := Reply.andThen_eq_ok emitted
      rw [state]
      obtain ⟨made, written, left⟩ := emit_eq_ok first
      rw [left] at others ⊢
      dsimp only at others ⊢
      obtain ⟨more, emittedMore, rfl⟩ := Reply.map_eq_ok others
      obtain ⟨madeMore, accepted, writtenMore⟩ := ih emittedMore
      exact ⟨.cons made madeMore, accepted, .first written writtenMore⟩

/-- Emitting several fails where one of them does, by induction on them. -/
theorem emitEach_eq_error {injectables : List Injectable} {generation : Generation} {store : σ}
    {failure : Failure}
    (refused : (emitEach write injectables generation store).result = .error failure)
    : (failure = .notAnIdentifier
          ∧ ∃ injectable ∈ injectables, Emission.factory? injectable = none)
      ∨ Refuses write failure := by
  induction injectables generalizing generation store with
  | nil => contradiction
  | cons injectable rest ih =>
      rw [emitEach] at refused
      rcases Reply.andThen_eq_error refused with first | ⟨_, _, others⟩
      · refine (emit_eq_error first).imp_left ?_
        rintro ⟨rfl, missing⟩
        exact ⟨rfl, injectable, List.mem_cons_self, missing⟩
      · refine (ih (Reply.map_eq_error others)).imp_left ?_
        rintro ⟨rfl, later, member, missing⟩
        exact ⟨rfl, later, List.mem_cons_of_mem injectable member, missing⟩

/-- A round that succeeds is the next one. Its rulings hold nothing invalid, and each injectable was
emitted in turn.
-/
theorem round_eq_ok {index : Index} {generation : Generation} {store : σ} {round : Round}
    (done : (generation.round write index.candidates store).result = .ok round)
    : ∃ turn : Turn,
        turn.index = index
        ∧ turn.Follows generation
        ∧ round = ⟨turn.factories, turn.intake.deferred⟩
        ∧ (generation.round write index.candidates store).state.1 = turn.next generation
        ∧ Written write store turn.factories
            (generation.round write index.candidates store).state.2 := by
  unfold Generation.round at done ⊢
  dsimp only [Reply.telling] at done ⊢
  cases ruled : Intake.ofRulings
      (Intake.rulings generation.begin.processed generation.begin.injectables index.candidates) with
  | error diagnostics => simp [ruled, Reply.failed] at done
  | ok intake =>
      simp only [ruled] at done ⊢
      rw [takeIn] at done ⊢
      obtain ⟨factories, emitted, told, state⟩ := Reply.andThen_eq_ok done
      obtain ⟨made, accepted, written⟩ := emitEach_eq_ok emitted
      obtain rfl := Except.ok.inj told
      refine ⟨⟨index, intake, factories⟩, rfl, ⟨ruled, made⟩, rfl, ?_, ?_⟩
      · rw [state]
        exact congrArg (fun generation => generation.settle index.candidates intake.deferred) accepted
      · rw [state]
        exact written

/-- A round fails over its rulings, over a name, or over the store, by the places at which it can stop.
-/
theorem round_eq_error {candidates : List Candidate} {generation : Generation} {store : σ}
    {failure : Failure}
    (failed : (generation.round write candidates store).result = .error failure)
    : (∃ diagnostics,
          failure = .invalid diagnostics
          ∧ Intake.ofRulings (Intake.rulings generation.processed generation.injectables candidates)
            = .error diagnostics)
      ∨ (failure = .notAnIdentifier
          ∧ ∃ intake,
              Intake.ofRulings (Intake.rulings generation.processed generation.injectables candidates)
                = .ok intake
              ∧ ∃ injectable ∈ intake.accepted, Emission.factory? injectable = none)
      ∨ Refuses write failure := by
  unfold Generation.round at failed
  dsimp only [Reply.telling] at failed
  cases ruled : Intake.ofRulings
      (Intake.rulings generation.begin.processed generation.begin.injectables candidates) with
  | error diagnostics =>
      simp only [ruled, Reply.failed, Except.error.injEq] at failed
      exact .inl ⟨diagnostics, failed.symm, ruled⟩
  | ok intake =>
      simp only [ruled] at failed
      rcases Reply.andThen_eq_error failed with emitted | ⟨_, _, told⟩
      · rcases emitEach_eq_error emitted with ⟨same, missing⟩ | refused
        · exact .inr (.inl ⟨same, intake, ruled, missing⟩)
        · exact .inr (.inr refused)
      · contradiction

end Generation

-----------------------------------------------------------------------------------------
-- Round after round
-----------------------------------------------------------------------------------------

/-- How a round fails when the store takes all that it is given. -/
inductive FailsAt (index : Index) (generation : Generation) : Failure → Prop
  | rulings {diagnostics}
    (invalid
      : Intake.ofRulings
          (Intake.rulings generation.processed generation.injectables index.candidates)
        = .error diagnostics)
    : FailsAt index generation (.invalid diagnostics)
  | name {intake injectable}
    (ruled
      : Intake.ofRulings
          (Intake.rulings generation.processed generation.injectables index.candidates)
        = .ok intake)
    (accepted : injectable ∈ intake.accepted)
    (unmade : Emission.factory? injectable = none)
    : FailsAt index generation .notAnIdentifier

/-- The rounds so far, the index as the next round finds it, and the generation before that round. -/
inductive Course (settings : Settings) (start : Index) : List Turn → Index → Generation → Prop
  | start : Course settings start [] start { settings }
  | turn {turns : List Turn} {generation : Generation} {turn : Turn}
    (before : Course settings start turns turn.index generation)
    (follows : turn.Follows generation)
    (taken : (turn.index.takeEach (turn.factories.map Artifact.source)).result = .ok ())
    : Course settings start (turns ++ [turn])
        (turn.index.takeEach (turn.factories.map Artifact.source)).state (turn.next generation)

namespace Course

variable {settings : Settings} {start index : Index} {turns : List Turn} {generation : Generation}

/-- The index grows by the factories of all rounds, by induction on the rounds. -/
theorem grown (course : Course settings start turns index generation)
    : Index.Grown (turns.flatMap Turn.factories) start index := by
  induction course with
  | start => exact .refl start
  | turn _ follows taken ih =>
      rw [List.flatMap_append, List.flatMap_singleton]
      exact ih.trans (Index.grown_takeEach follows.made taken)

/-- A round of the course follows those before it, by induction on the rounds. -/
theorem of_mem (course : Course settings start turns index generation) {turn : Turn}
    (member : turn ∈ turns)
    : ∃ earlier before,
        earlier <+: turns ∧ Course settings start earlier turn.index before ∧ turn.Follows before := by
  induction course with
  | start => simp at member
  | @turn turns _ last before follows _ ih =>
      rcases List.mem_append.mp member with member | member
      · obtain ⟨earlier, generation, included, course, follows⟩ := ih member
        exact ⟨earlier, generation, included.trans (List.prefix_append turns _), course, follows⟩
      · obtain rfl := List.mem_singleton.mp member
        exact ⟨turns, _, List.prefix_append turns _, before, follows⟩

/-- The factories of rounds that others follow can be read, by induction on the rounds. -/
theorem read (course : Course settings start turns index generation)
    : ∀ factory ∈ turns.flatMap Turn.factories,
        (Source.Item.ofText? factory.content).isSome = true := by
  induction course with
  | start => simp
  | turn _ _ taken ih =>
      rw [List.flatMap_append, List.flatMap_singleton]
      refine List.forall_mem_append.mpr ⟨ih, fun factory member => ?_⟩
      exact Index.read_of_takeEach taken factory.source (List.mem_map_of_mem member)

/-- The generation keeps its settings and counts its rounds, by induction on them. -/
theorem counted (course : Course settings start turns index generation)
    : generation.settings = settings ∧ generation.rounds = turns.length := by
  induction course with
  | start => exact ⟨rfl, rfl⟩
  | @turn _ generation turn _ _ _ ih =>
      obtain ⟨same, rounds⟩ := turn.next_counted generation
      rw [same, rounds, List.length_append, ih.2]
      exact ⟨ih.1, rfl⟩

/-- Each round makes one factory for each injectable it accepts, by induction on the rounds. -/
theorem made (course : Course settings start turns index generation)
    : List.Forall₂ (fun injectable factory => Emission.factory? injectable = some factory)
        (turns.flatMap (·.intake.accepted)) (turns.flatMap Turn.factories) := by
  induction course with
  | start => exact .nil
  | turn _ follows _ ih =>
      rw [List.flatMap_append, List.flatMap_append, List.flatMap_singleton, List.flatMap_singleton]
      exact List.rel_append ih follows.made

end Course

namespace Workplace

variable {σ : Type} {write : Writer σ} {settings : Settings} {start : Index} {turns : List Turn}
  {workplace : Workplace σ}

/-- The workplace that `further` rounds and a last one have left, where at most `more` were to follow
the first of them. The last round leaves nothing open, or makes nothing, or there have been enough.
-/
structure LeftBy (write : Writer σ) (store : σ) (more : Nat) (further : List Turn) (last : Turn)
    (before : Generation) (left : Workplace σ)
    : Prop where
  generation : left.generation = last.next before
  index : left.index = last.index
  written : Written write store ((further ++ [last]).flatMap Turn.factories) left.store
  enough : further.length ≤ more
  ends : further.length < more → last.intake.deferred = [] ∨ last.factories = []

/-- Rounds that succeed go on with the course up to a last round, by induction on their number. -/
theorem leftBy_rounds {more : Nat} {index : Index} {generation : Generation} {store : σ}
    (course : Course settings start turns index generation)
    (done : (rounds write more ⟨generation, index, store⟩).result = .ok ())
    : ∃ further last before,
        Course settings start (turns ++ further) last.index before
        ∧ last.Follows before
        ∧ LeftBy write store more further last before
            (rounds write more ⟨generation, index, store⟩).state := by
  induction more generalizing turns index generation store with
  | zero =>
      rw [rounds] at done ⊢
      obtain ⟨round, made, _⟩ := Reply.map_eq_ok done
      obtain ⟨turn, rfl, follows, _, next, written⟩ := Generation.round_eq_ok made
      refine ⟨[], turn, generation, by simpa using course, follows, next, rfl, ?_, Nat.le_refl 0,
        by simp⟩
      rw [List.nil_append, List.flatMap_singleton]
      exact written
  | succ more ih =>
      rw [rounds] at done ⊢
      obtain ⟨round, made, goesOn, state⟩ := Reply.andThen_eq_ok done
      obtain ⟨turn, rfl, follows, rfl, next, written⟩ := Generation.round_eq_ok made
      rw [state]
      split at goesOn
      · rename_i stops
        rw [if_pos stops]
        refine ⟨[], turn, generation, by simpa using course, follows, next, rfl, ?_, Nat.zero_le _,
          fun _ => by simpa [Round.progressed] using stops⟩
        rw [List.nil_append, List.flatMap_singleton]
        exact written
      · rename_i continues
        rw [if_neg continues]
        obtain ⟨_, taken, goesOn, state⟩ := Reply.andThen_eq_ok goesOn
        rw [state]
        have extended := course.turn follows taken
        obtain ⟨further, last, before, course, follows, left⟩ := ih (next ▸ extended) goesOn
        refine ⟨turn :: further, last, before, by simpa using course, follows, left.generation,
          left.index, ?_, Nat.succ_le_succ left.enough, fun fewer => left.ends ?_⟩
        · rw [List.cons_append, List.flatMap_cons]
          exact written.append left.written
        · exact Nat.lt_of_succ_lt_succ fewer

/-- What rounds that succeed have recorded and written. -/
theorem rounds_eq_ok {more : Nat} {index : Index} {generation : Generation} {store : σ}
    (course : Course settings start turns index generation)
    (done : (rounds write more ⟨generation, index, store⟩).result = .ok ())
    : ∃ (further : List Turn) (last : Turn) (before : Generation),
        Course settings start (turns ++ further) last.index before
        ∧ last.Follows before
        ∧ (rounds write more ⟨generation, index, store⟩).state.generation = last.next before
        ∧ Written write store ((further ++ [last]).flatMap Turn.factories)
            (rounds write more ⟨generation, index, store⟩).state.store := by
  obtain ⟨further, last, before, course, follows, left⟩ := leftBy_rounds course done
  exact ⟨further, last, before, course, follows, left.generation, left.written⟩

/-- Rounds that fail over neither the store nor a text have come to a round that fails over its rulings
or over a name, by induction on their number.
-/
theorem rounds_eq_error {more : Nat} {index : Index} {generation : Generation} {store : σ}
    {failure : Failure} (accepts : ¬ Refuses write failure)
    (readable : ∀ file, failure ≠ .unparsable file)
    (course : Course settings start turns index generation)
    (failed : (rounds write more ⟨generation, index, store⟩).result = .error failure)
    : ∃ further index generation,
        Course settings start (turns ++ further) index generation
        ∧ FailsAt index generation failure := by
  have fails {index : Index} {generation : Generation} {store : σ}
      (failed : (round write ⟨generation, index, store⟩).result = .error failure)
      : FailsAt index generation failure := by
    rcases Generation.round_eq_error failed with ⟨found, rfl, invalid⟩ | ⟨rfl, missing⟩ | refused
    · exact .rulings invalid
    · obtain ⟨intake, ruled, injectable, accepted, unmade⟩ := missing
      exact .name ruled accepted unmade
    · exact absurd refused accepts
  induction more generalizing turns index generation store with
  | zero =>
      rw [rounds] at failed
      exact ⟨[], index, generation, by simpa using course, fails (Reply.map_eq_error failed)⟩
  | succ more ih =>
      rw [rounds] at failed
      rcases Reply.andThen_eq_error failed with failed | ⟨round, made, failed⟩
      · exact ⟨[], index, generation, by simpa using course, fails failed⟩
      · obtain ⟨turn, rfl, follows, rfl, next, _⟩ := Generation.round_eq_ok made
        split at failed
        · contradiction
        · rcases Reply.andThen_eq_error failed with back | ⟨_, taken, failed⟩
          · obtain ⟨file, same⟩ := Index.takeEach_eq_error back
            exact absurd same (readable file)
          · have extended := course.turn follows taken
            obtain ⟨further, index, generation, course, found⟩ := ih (next ▸ extended) failed
            exact ⟨turn :: further, index, generation, by simpa using course, found⟩

end Workplace

-----------------------------------------------------------------------------------------
-- The end
-----------------------------------------------------------------------------------------

/-- The rounds of a run after which nothing is deferred, and the generation after them. -/
inductive Completes (settings : Settings) (start : Index) : List Turn → Generation → Prop
  | last {turns : List Turn} {last : Turn} {generation : Generation}
    (course : Course settings start turns last.index generation)
    (follows : last.Follows generation) (settled : last.intake.deferred = [])
    : Completes settings start (turns ++ [last]) (last.next generation)

namespace Completes

variable {settings : Settings} {start : Index} {turns : List Turn} {generation : Generation}

/-- A round of the run follows those before it. -/
theorem of_mem (completes : Completes settings start turns generation) {turn : Turn}
    (member : turn ∈ turns)
    : ∃ earlier before,
        earlier <+: turns ∧ Course settings start earlier turn.index before ∧ turn.Follows before := by
  obtain @⟨turns, last, before, course, follows, _⟩ := completes
  rcases List.mem_append.mp member with member | member
  · obtain ⟨earlier, generation, included, course, follows⟩ := course.of_mem member
    exact ⟨earlier, generation, included.trans (List.prefix_append turns _), course, follows⟩
  · obtain rfl := List.mem_singleton.mp member
    exact ⟨turns, before, List.prefix_append turns _, course, follows⟩

/-- Each round makes one factory for each injectable it accepts. -/
theorem made (completes : Completes settings start turns generation)
    : List.Forall₂ (fun injectable factory => Emission.factory? injectable = some factory)
        (turns.flatMap (·.intake.accepted)) (turns.flatMap Turn.factories) := by
  obtain ⟨course, follows, _⟩ := completes
  rw [List.flatMap_append, List.flatMap_append, List.flatMap_singleton, List.flatMap_singleton]
  exact List.rel_append course.made follows.made

/-- A complete generation has kept its settings and counted its turns. -/
theorem counted (completes : Completes settings start turns generation)
    : generation.settings = settings ∧ generation.rounds = turns.length := by
  obtain ⟨course, _, _⟩ := completes
  obtain ⟨same, rounds⟩ := course.counted
  rw [(Turn.next_counted _ _).1, (Turn.next_counted _ _).2, rounds, List.length_append]
  exact ⟨same, rfl⟩

end Completes

/-- Injectables that ascend by target stand in the order of their rows. -/
theorem Emission.inRowOrder_of_ascending {injectables : List Injectable}
    (ascending : injectables.Pairwise fun left right => left.target < right.target)
    : inRowOrder injectables = injectables := by
  refine List.mergeSort_of_pairwise (ascending.imp fun {left right} below => ?_)
  rw [TypeName.notAfter, Bool.not_eq_true', Bool.eq_false_iff]
  exact asymm_of (· < ·) below

/-- The rows of injectables that ascend by target stand in the order of these. -/
theorem Emission.component_of_ascending {settings : Settings} {injectables : List Injectable}
    {runtime component : String} {rows : List ComponentRow}
    (ascending : injectables.Pairwise fun left right => left.target < right.target)
    (path : Source.readPath? settings.runtimePath = some runtime)
    (name : Source.readIdentifier? settings.componentName = some component)
    (found : rows? runtime (bareName component ++ "Dispatch") injectables = some rows)
    : Emission.component settings injectables
      = .ok {
        home := settings.componentNamespace
        name := settings.componentName
        kind := .component
        content := render (componentCode runtime component (bareName component ++ "Dispatch") rows)
        origins := ⟨true, declaringFiles injectables⟩
      } := by
  simp only [Emission.component, path, name, inRowOrder_of_ascending ascending, found]

/-- A component is refused over the settings or over a name. -/
theorem Emission.component_eq_error {settings : Settings} {injectables : List Injectable}
    {failure : Failure} (failed : Emission.component settings injectables = .error failure)
    : (∃ fault, failure = .settings fault) ∨ failure = .notAnIdentifier := by
  unfold Emission.component at failed
  split at failed
  · exact .inl ⟨_, (Except.error.inj failed).symm⟩
  · split at failed
    · exact .inl ⟨_, (Except.error.inj failed).symm⟩
    · dsimp only at failed
      split at failed
      · exact .inr (Except.error.inj failed).symm
      · contradiction

namespace Generation

variable {σ : Type} {write : Writer σ} {generation : Generation} {store : σ}

/-- An end that succeeds leaves nothing deferred, and writes the component. -/
theorem finish_eq_ok {summary : Summary}
    (done : (generation.finish write store).result = .ok summary)
    : generation.deferred = []
      ∧ ∃ component,
          Emission.component generation.settings generation.injectables = .ok component
          ∧ Written write store [component] (generation.finish write store).state
          ∧ summary = generation.summary component := by
  unfold finish at done ⊢
  split at done
  · contradiction
  · rename_i free
    have settled : generation.deferred = [] := by
      by_contra left
      simp [obstacle?, left] at free
    unfold complete at done ⊢
    cases made : Emission.component generation.settings generation.injectables with
    | error failure => simp [made, Reply.telling, Reply.failed] at done
    | ok component =>
        simp only [made, Reply.telling] at done ⊢
        obtain ⟨_, written, told, state⟩ := Reply.andThen_eq_ok done
        rw [state]
        exact ⟨settled, component, rfl, .first written (.none _), (Except.ok.inj told).symm⟩

/-- What is deferred comes first. -/
theorem obstacle?_of_deferred (left : generation.deferred ≠ [])
    : generation.obstacle?
      = some (.unresolved generation.rounds
          (generation.deferred.map fun marked => (marked.text, marked.location))) := by
  rw [obstacle?, List.isEmpty_eq_false_iff.mpr left]
  rfl

/-- With nothing deferred, only a denied cycle is in the way. -/
theorem obstacle?_of_settled (settled : generation.deferred = [])
    : generation.obstacle?
      = if generation.settings.denyCycles then generation.blueprint.firstCycle?.map Failure.cycle
        else none := by
  rw [obstacle?, settled]
  rfl

/-- What keeps a component from being made is a cycle or what is unresolved. -/
theorem obstacle?_eq_some {failure : Failure} (obstacle : generation.obstacle? = some failure)
    : (∃ types, failure = .cycle types)
      ∨ ∃ declarations, failure = .unresolved generation.rounds declarations := by
  by_cases settled : generation.deferred = []
  · rw [obstacle?_of_settled settled] at obstacle
    split at obstacle
    · obtain ⟨types, _, rfl⟩ := Option.map_eq_some_iff.mp obstacle
      exact .inl ⟨types, rfl⟩
    · contradiction
  · rw [obstacle?_of_deferred settled] at obstacle
    exact .inr ⟨_, (Option.some.inj obstacle).symm⟩

/-- An end fails over an obstacle, over the component, or over the store. -/
theorem finish_eq_error {failure : Failure}
    (failed : (generation.finish write store).result = .error failure)
    : generation.obstacle? = some failure
      ∨ generation.obstacle? = none
        ∧ (Emission.component generation.settings generation.injectables = .error failure
          ∨ Refuses write failure) := by
  unfold finish at failed
  split at failed
  · rename_i found obstacle
    obtain rfl := Except.error.inj failed
    exact .inl obstacle
  · rename_i free
    refine .inr ⟨free, ?_⟩
    unfold complete at failed
    cases made : Emission.component generation.settings generation.injectables with
    | error found =>
        simp only [made, Reply.telling, Reply.failed, Except.error.injEq] at failed
        exact .inl (congrArg Except.error failed)
    | ok component =>
        simp only [made, Reply.telling] at failed
        rcases Reply.andThen_eq_error failed with refused | ⟨_, _, told⟩
        · exact .inr ⟨store, component, refused⟩
        · contradiction

/-- No end reports invalid declarations. -/
theorem finish_ne_invalid {diagnostics : List Diagnostic}
    (accepts : ¬ Refuses write (.invalid diagnostics))
    : (generation.finish write store).result ≠ .error (.invalid diagnostics) := by
  intro failed
  rcases finish_eq_error failed with obstacle | ⟨_, component | refused⟩
  · rcases obstacle?_eq_some obstacle with ⟨_, same⟩ | ⟨_, same⟩ <;> contradiction
  · rcases Emission.component_eq_error component with ⟨_, same⟩ | same <;> contradiction
  · exact accepts refused

/-- An end that finds something unresolved reports what was deferred, and leaves the store. -/
theorem finish_eq_unresolved {count : Nat} {declarations : List (String × Location)}
    (accepts : ¬ Refuses write (.unresolved count declarations))
    (failed : (generation.finish write store).result = .error (.unresolved count declarations))
    : generation.deferred ≠ []
      ∧ count = generation.rounds
      ∧ declarations = generation.deferred.map (fun marked => (marked.text, marked.location))
      ∧ (generation.finish write store).state = store := by
  rcases finish_eq_error failed with obstacle | ⟨_, component | refused⟩
  · have left : generation.deferred ≠ [] := by
      intro settled
      rw [obstacle?_of_settled settled] at obstacle
      split at obstacle
      · obtain ⟨_, _, same⟩ := Option.map_eq_some_iff.mp obstacle
        contradiction
      · contradiction
    have reported := obstacle
    rw [obstacle?_of_deferred left, Option.some.injEq, Failure.unresolved.injEq] at reported
    refine ⟨left, reported.1.symm, reported.2.symm, ?_⟩
    rw [finish, obstacle]
    rfl
  · rcases Emission.component_eq_error component with ⟨_, same⟩ | same <;> contradiction
  · exact absurd refused accepts

end Generation

namespace Workplace

variable {σ : Type} {write : Writer σ} {settings : Settings} {index : Index} {store : σ}

/-- A run that succeeds has completed a course, and has written its factories and the component. -/
theorem run_eq_ok {summary : Summary}
    (done : (run write ⟨{ settings }, index, store⟩).result = .ok summary)
    : ∃ turns generation component,
        Completes settings index turns generation
        ∧ (run write ⟨{ settings }, index, store⟩).state.generation = generation
        ∧ Emission.component generation.settings generation.injectables = .ok component
        ∧ Written write store (turns.flatMap Turn.factories ++ [component])
            (run write ⟨{ settings }, index, store⟩).state.store
        ∧ summary = generation.summary component := by
  rw [run] at done ⊢
  obtain ⟨_, rounded, finished, state⟩ := Reply.andThen_eq_ok done
  obtain ⟨turns, last, before, course, follows, next, written⟩ := rounds_eq_ok .start rounded
  rw [state]
  rw [Reply.result_lift] at finished
  obtain ⟨settled, component, made, writtenMore, summary⟩ := Generation.finish_eq_ok finished
  rw [next] at settled made summary
  refine ⟨turns ++ [last], last.next before, component, ?_, next, made, ?_, summary⟩
  · exact .last (by simpa using course) follows settled
  · exact written.append writtenMore

/-- A run that reports invalid declarations has come to a round whose rulings hold them. -/
theorem run_eq_invalid {diagnostics : List Diagnostic}
    (accepts : ¬ Refuses write (.invalid diagnostics))
    (failed : (run write ⟨{ settings }, index, store⟩).result = .error (.invalid diagnostics))
    : ∃ turns last generation,
        Course settings index turns last generation
        ∧ Intake.ofRulings
            (Intake.rulings generation.processed generation.injectables last.candidates)
          = .error diagnostics := by
  rw [run] at failed
  rcases Reply.andThen_eq_error failed with rounded | ⟨_, _, finished⟩
  · obtain ⟨turns, last, generation, course, fails⟩ := rounds_eq_error accepts (by simp) .start rounded
    cases fails with
    | rulings invalid => exact ⟨turns, last, generation, course, invalid⟩
  · rw [Reply.result_lift] at finished
    exact absurd finished (Generation.finish_ne_invalid accepts)

/-- A run that reports unresolved declarations has come to a last round that leaves them open. Rounds
that stop of themselves leave nothing or make nothing, and the end reports what is deferred.
-/
theorem run_eq_unresolved {count : Nat} {declarations : List (String × Location)}
    (accepts : ¬ Refuses write (.unresolved count declarations))
    (failed
      : (run write ⟨{ settings }, index, store⟩).result = .error (.unresolved count declarations))
    : ∃ further last before,
        Course settings index further last.index before
        ∧ last.Follows before
        ∧ LeftBy write store (settings.maxRounds - 1) further last before
            (run write ⟨{ settings }, index, store⟩).state
        ∧ last.intake.deferred ≠ []
        ∧ count = further.length + 1
        ∧ declarations
          = last.intake.deferred.map (fun marked => (marked.text, marked.location)) := by
  rw [run] at failed ⊢
  rcases Reply.andThen_eq_error failed with rounded | ⟨_, rounded, finished⟩
  · obtain ⟨_, _, _, _, fails⟩ := rounds_eq_error accepts (by simp) .start rounded
    cases fails
  · obtain ⟨further, last, before, course, follows, left⟩ := leftBy_rounds .start rounded
    rw [Reply.result_lift] at finished
    obtain ⟨open_, number, listed, kept⟩ := Generation.finish_eq_unresolved accepts finished
    rw [(Reply.andThen_of_ok rounded).2]
    rw [left.generation] at open_ number listed
    rw [(last.next_counted before).2, course.counted.2] at number
    refine ⟨further, last, before, by simpa using course, follows, ?_, open_, by simpa using number,
      listed⟩
    dsimp only [Reply.lift]
    rw [kept]
    exact left

/-- A round that leaves nothing or makes nothing is the last one, however many may follow. -/
theorem rounds_of_last {workplace : Workplace σ} {last : Round}
    (done : (round write workplace).result = .ok last)
    (stops : last.deferred = [] ∨ last.emitted = []) (more : Nat)
    : (rounds write more workplace).result = .ok ()
      ∧ (rounds write more workplace).state = (round write workplace).state := by
  cases more with
  | zero =>
      rw [rounds, Reply.map, done]
      exact ⟨rfl, rfl⟩
  | succ more =>
      obtain ⟨result, state⟩ := Reply.andThen_of_ok done
      rw [rounds, result, state, if_pos (by simpa [Round.progressed] using stops)]
      exact ⟨rfl, rfl⟩

/-- Behind a first round with one factory, which leaves something, the others begin where the factory
has been added. The factory goes back to the index, and the first round is not the last.
-/
theorem rounds_of_first {factory : Artifact} {deferred : List Marked} {generation : Generation}
    {next : Index}
    (first
      : (Workplace.round write ⟨{ settings }, index, store⟩).result = .ok ⟨[factory], deferred⟩)
    (left : deferred ≠ [])
    (state : (Workplace.round write ⟨{ settings }, index, store⟩).state.generation = generation)
    (added : index.add factory.source = .ok next) (more : Nat)
    : let second : Workplace σ :=
        ⟨generation, next, (Workplace.round write ⟨{ settings }, index, store⟩).state.store⟩
      (rounds write (more + 1) ⟨{ settings }, index, store⟩).result
          = (rounds write more second).result
        ∧ (rounds write (more + 1) ⟨{ settings }, index, store⟩).state
          = (rounds write more second).state := by
  have taken
      : (index.takeEach ([factory].map Artifact.source)).result = .ok ()
        ∧ (index.takeEach ([factory].map Artifact.source)).state = next := by
    simp [Index.takeEach, Index.take, added, Reply.andThen, Reply.telling, Reply.done]
  obtain ⟨done, after⟩ := Reply.andThen_of_ok first
  have back
      : (takeBack [factory] (Workplace.round write ⟨{ settings }, index, store⟩).state).result
        = .ok () :=
    taken.1
  have place
      : (takeBack [factory] (Workplace.round write ⟨{ settings }, index, store⟩).state).state
        = ⟨generation, next, (Workplace.round write ⟨{ settings }, index, store⟩).state.store⟩ := by
    rw [← state, ← taken.2]
    rfl
  obtain ⟨result, reached⟩ := Reply.andThen_of_ok back
  rw [rounds, done, after, if_neg (by simp [left, Round.progressed]), result, reached, place]
  exact ⟨rfl, rfl⟩

/-- A first round that leaves nothing deferred is the last one, and the component follows it. Nothing
stands in the way of the component.
-/
theorem run_eq_ok_of_settled {generation : Generation} {component : Artifact}
    (settled
      : (Workplace.round write ⟨{ settings }, index, store⟩).result.toOption.map Round.deferred
        = some [])
    (state : (Workplace.round write ⟨{ settings }, index, store⟩).state.generation = generation)
    (free : generation.obstacle? = none)
    (made : Emission.component generation.settings generation.injectables = .ok component)
    (taken
      : (write (Workplace.round write ⟨{ settings }, index, store⟩).state.store component).result
        = .ok ())
    : (run write ⟨{ settings }, index, store⟩).result = .ok (generation.summary component)
      ∧ (run write ⟨{ settings }, index, store⟩).state.generation = generation
      ∧ (run write ⟨{ settings }, index, store⟩).state.store
        = (write (Workplace.round write ⟨{ settings }, index, store⟩).state.store component).state := by
  obtain ⟨round, answered, settled⟩ := Option.map_eq_some_iff.mp settled
  have done := eq_ok_of_toOption_eq_some answered
  have rounded := rounds_of_last done (.inl settled) (settings.maxRounds - 1)
  have ⟨told, kept⟩
      : (generation.finish write (Workplace.round write ⟨{ settings }, index, store⟩).state.store).result
          = .ok (generation.summary component)
        ∧ (generation.finish write
            (Workplace.round write ⟨{ settings }, index, store⟩).state.store).state
          = (write (Workplace.round write ⟨{ settings }, index, store⟩).state.store component).state := by
    rw [Generation.finish, free]
    dsimp only [Reply.telling]
    rw [Generation.complete, made]
    exact Reply.andThen_of_ok taken
  obtain ⟨result, after⟩ := Reply.andThen_of_ok rounded.1
  rw [run, result, after, rounded.2, state]
  exact ⟨told, rfl, kept⟩

/-- A run that goes on after its first round with one factory fails as its second round does. The
second round is the first one of the others.
-/
theorem run_eq_error_of_second {factory : Artifact} {deferred : List Marked}
    {generation : Generation} {next : Index} {failure : Failure} (enough : 2 ≤ settings.maxRounds)
    (first
      : (Workplace.round write ⟨{ settings }, index, store⟩).result = .ok ⟨[factory], deferred⟩)
    (left : deferred ≠ [])
    (state : (Workplace.round write ⟨{ settings }, index, store⟩).state.generation = generation)
    (added : index.add factory.source = .ok next)
    (second
      : (Workplace.round write
          ⟨generation, next,
            (Workplace.round write ⟨{ settings }, index, store⟩).state.store⟩).result
        = .error failure)
    : (run write ⟨{ settings }, index, store⟩).result = .error failure := by
  obtain ⟨more, number⟩ : ∃ more, settings.maxRounds - 1 = more + 1 :=
    ⟨settings.maxRounds - 2, by omega⟩
  have ends
      : (rounds write more
          ⟨generation, next,
            (Workplace.round write ⟨{ settings }, index, store⟩).state.store⟩).result
        = .error failure := by
    cases more with
    | zero =>
        rw [rounds, Reply.map, second]
        rfl
    | succ more =>
        rw [rounds]
        exact Reply.andThen_of_error second
  have rounded
      : (rounds write (settings.maxRounds - 1) ⟨{ settings }, index, store⟩).result
        = .error failure := by
    rw [number, (rounds_of_first first left state added more).1]
    exact ends
  exact Reply.andThen_of_error rounded

/-- A run whose second round makes nothing and leaves something reports that. The second round is the
first one of the others, and the last one as it makes nothing.
-/
theorem run_eq_unresolved_of_second {factory : Artifact} {deferred : List Marked}
    {generation after : Generation} {next : Index} {last : Round} (enough : 2 ≤ settings.maxRounds)
    (first
      : (Workplace.round write ⟨{ settings }, index, store⟩).result = .ok ⟨[factory], deferred⟩)
    (left : deferred ≠ [])
    (state : (Workplace.round write ⟨{ settings }, index, store⟩).state.generation = generation)
    (added : index.add factory.source = .ok next)
    (second
      : (Workplace.round write
          ⟨generation, next,
            (Workplace.round write ⟨{ settings }, index, store⟩).state.store⟩).result
        = .ok last)
    (nothing : last.emitted = [])
    (stateAfter
      : (Workplace.round write
          ⟨generation, next,
            (Workplace.round write ⟨{ settings }, index, store⟩).state.store⟩).state.generation
        = after)
    (unresolved : after.deferred ≠ [])
    : (run write ⟨{ settings }, index, store⟩).result
      = .error (.unresolved after.rounds
          (after.deferred.map fun marked => (marked.text, marked.location))) := by
  obtain ⟨more, number⟩ : ∃ more, settings.maxRounds - 1 = more + 1 :=
    ⟨settings.maxRounds - 2, by omega⟩
  obtain ⟨result, reached⟩ := rounds_of_first first left state added more
  obtain ⟨done, ends⟩ := rounds_of_last second (.inr nothing) more
  rw [done, ← number] at result
  rw [ends, ← number] at reached
  rw [run, (Reply.andThen_of_ok result).1, Reply.result_lift, reached, Generation.finish, stateAfter,
    Generation.obstacle?_of_deferred unresolved]
  rfl

end Workplace

end Wiring
