import Wiring.Proofs.Generation.Calls

/-! What a run offers to its store: the factories of the injectables it accepts, and then the component.
A store that keeps everything is offered all of this. Any other store is offered the same, in the same
order, up to the first artifact that it refuses, where the run fails.
-/

namespace Wiring

variable {σ ρ τ υ α β : Type} {write : Writer σ}

-----------------------------------------------------------------------------------------
-- A store that keeps everything
-----------------------------------------------------------------------------------------

/-- Keeps all artifacts in order. -/
def Writer.keeping : Writer (List Artifact) :=
  fun kept artifact => .done (kept ++ [artifact]) ()

/-- A store that keeps everything logs what it keeps. -/
theorem Writer.logs_keeping : keeping.Logs id where
  taken _ := rfl
  refused refused := nomatch refused

/-- What has been written to it is behind what it kept before. -/
theorem Writer.eq_append_of_written {kept after artifacts : List Artifact}
    (written : Written keeping kept artifacts after)
    : after = kept ++ artifacts := by
  induction written with
  | none => exact (List.append_nil _).symm
  | first _ _ ih => simpa [keeping, Reply.done] using ih

-----------------------------------------------------------------------------------------
-- Any other store beside it
-----------------------------------------------------------------------------------------

/-- The store takes some of the artifacts and then refuses one. -/
def StopsIn (write : Writer σ) (store : σ) (artifacts : List Artifact) (failure : Failure) : Prop :=
  ∃ front artifact middle,
    front ++ [artifact] <+: artifacts
    ∧ Written write store front middle
    ∧ (write middle artifact).result = .error failure

/-- A store that stops within artifacts stops before any further ones. -/
theorem StopsIn.append {store : σ} {artifacts : List Artifact} {failure : Failure}
    (stops : StopsIn write store artifacts failure) (more : List Artifact)
    : StopsIn write store (artifacts ++ more) failure := by
  obtain ⟨front, artifact, middle, offered, taken, refused⟩ := stops
  exact ⟨front, artifact, middle, offered.trans (List.prefix_append artifacts more), taken, refused⟩

/-- A store that stops behind what it has taken stops within all of it. -/
theorem StopsIn.after {store middle : σ} {artifacts more : List Artifact} {failure : Failure}
    (taken : Written write store artifacts middle) (stops : StopsIn write middle more failure)
    : StopsIn write store (artifacts ++ more) failure := by
  obtain ⟨front, artifact, last, offered, takenMore, refused⟩ := stops
  refine ⟨artifacts ++ front, artifact, last, ?_, taken.append takenMore, refused⟩
  rw [List.append_assoc]
  exact List.prefix_append_right_inj artifacts |>.mpr offered

/-- The reply `full` is about a store that keeps everything, and `reply` about another one, each store
in its own frame. Both have been offered the same artifacts, up to one that the other store refuses;
where it takes them all, the replies agree on all else.
-/
def KeepsPace (write : Writer σ) (frame : ρ → List Artifact → τ) (frameOther : ρ → σ → υ)
    (kept : List Artifact) (store : σ) (full : Reply τ α) (reply : Reply υ α)
    : Prop :=
  ∃ rest offered,
    full.state = frame rest (kept ++ offered)
    ∧ ((∃ after,
          Written write store offered after
          ∧ reply.state = frameOther rest after
          ∧ reply.result = full.result)
      ∨ ∃ failure, StopsIn write store offered failure ∧ reply.result = .error failure)

namespace KeepsPace

variable {frame : ρ → List Artifact → τ} {frameOther : ρ → σ → υ} {kept : List Artifact} {store : σ}
  {full : Reply τ α} {reply : Reply υ α}

/-- Nothing is offered. -/
theorem silent (rest : ρ) (state : full.state = frame rest kept)
    (stateOther : reply.state = frameOther rest store) (result : reply.result = full.result)
    : KeepsPace write frame frameOther kept store full reply :=
  ⟨rest, [], by rw [List.append_nil, state], .inl ⟨store, .none store, stateOther, result⟩⟩

/-- One artifact is offered. -/
theorem offering (artifact : Artifact)
    : KeepsPace write (fun (_ : Unit) kept => kept) (fun _ store => store) kept store
        (Writer.keeping kept artifact) (write store artifact) := by
  refine ⟨(), [artifact], rfl, ?_⟩
  cases answer : (write store artifact).result with
  | ok => exact .inl ⟨_, .first answer (.none _), rfl, rfl⟩
  | error failure =>
      exact .inr ⟨failure, ⟨[], artifact, store, List.prefix_rfl, .none store, answer⟩, rfl⟩

/-- Replies keep pace if both of their steps do. A refusal in the first step ends the other run, while
the full one goes on and offers more behind it.
-/
theorem andThen {next : τ → α → Reply τ β} {nextOther : υ → α → Reply υ β}
    (first : KeepsPace write frame frameOther kept store full reply)
    (follows
      : ∀ rest kept store value,
          KeepsPace write frame frameOther kept store (next (frame rest kept) value)
            (nextOther (frameOther rest store) value))
    : KeepsPace write frame frameOther kept store (full.andThen next) (reply.andThen nextOther) := by
  obtain ⟨rest, offered, state, goesOn⟩ := first
  cases answer : full.result with
  | error failure =>
      refine ⟨rest, offered, (Reply.state_andThen_of_error answer).trans state, ?_⟩
      rcases goesOn with ⟨after, taken, stateOther, result⟩ | ⟨refusal, stops, result⟩
      · have same := result.trans answer
        refine .inl ⟨after, taken, (Reply.state_andThen_of_error same).trans stateOther, ?_⟩
        rw [Reply.andThen_of_error answer, Reply.andThen_of_error same]
      · exact .inr ⟨refusal, stops, Reply.andThen_of_error result⟩
  | ok value =>
      have ⟨resultAfter, stateAfter⟩
          : (full.andThen next).result = (next full.state value).result
            ∧ (full.andThen next).state = (next full.state value).state :=
        Reply.andThen_of_ok answer
      rw [state] at resultAfter stateAfter
      rcases goesOn with ⟨after, taken, stateOther, result⟩ | ⟨refusal, stops, result⟩
      · obtain ⟨last, more, fullState, ends⟩ := follows rest (kept ++ offered) after value
        have ⟨resultOther, stateOtherAfter⟩
            : (reply.andThen nextOther).result = (nextOther reply.state value).result
              ∧ (reply.andThen nextOther).state = (nextOther reply.state value).state :=
          Reply.andThen_of_ok (result.trans answer)
        rw [stateOther] at resultOther stateOtherAfter
        refine ⟨last, offered ++ more, ?_, ?_⟩
        · rw [stateAfter, fullState, List.append_assoc]
        · rw [resultAfter, resultOther, stateOtherAfter]
          refine ends.imp ?_ ?_
          · rintro ⟨final, takenMore, stateLast, resultLast⟩
            exact ⟨final, taken.append takenMore, stateLast, resultLast⟩
          · rintro ⟨refusal, stops, resultLast⟩
            exact ⟨refusal, stops.after taken, resultLast⟩
      · obtain ⟨last, more, fullState, _⟩ := follows rest (kept ++ offered) store value
        refine ⟨last, offered ++ more, ?_, .inr ⟨refusal, stops.append more, ?_⟩⟩
        · rw [stateAfter, fullState, List.append_assoc]
        · exact Reply.andThen_of_error result

/-- Mapping keeps pace, as it leaves states and failures alone. -/
theorem map (pace : KeepsPace write frame frameOther kept store full reply) (f : α → β)
    : KeepsPace write frame frameOther kept store (full.map f) (reply.map f) := by
  obtain ⟨rest, offered, state, goesOn⟩ := pace
  refine ⟨rest, offered, state, goesOn.imp ?_ ?_⟩
  · rintro ⟨after, taken, stateOther, result⟩
    exact ⟨after, taken, stateOther, congrArg (Except.map f) result⟩
  · rintro ⟨failure, stops, result⟩
    exact ⟨failure, stops, congrArg (Except.map f) result⟩

/-- What else is told makes no difference. -/
theorem telling (pace : KeepsPace write frame frameOther kept store full reply)
    (events : List Event)
    : KeepsPace write frame frameOther kept store (.telling events full) (.telling events reply) :=
  pace

/-- Frames may be put into larger ones. -/
theorem lift {ρ' τ' υ' : Type} {frame' : ρ' → List Artifact → τ'} {frameOther' : ρ' → σ → υ'}
    {f : τ → τ'} {fOther : υ → υ'} (pace : KeepsPace write frame frameOther kept store full reply)
    (into : ρ → ρ') (same : ∀ rest kept, f (frame rest kept) = frame' (into rest) kept)
    (sameOther : ∀ rest store, fOther (frameOther rest store) = frameOther' (into rest) store)
    : KeepsPace write frame' frameOther' kept store (full.lift f) (reply.lift fOther) := by
  obtain ⟨rest, offered, state, goesOn⟩ := pace
  refine ⟨into rest, offered, (congrArg f state).trans (same rest _), goesOn.imp_left ?_⟩
  rintro ⟨after, taken, stateOther, result⟩
  exact ⟨after, taken, (congrArg fOther stateOther).trans (sameOther rest after), result⟩

end KeepsPace

-----------------------------------------------------------------------------------------
-- Runs
-----------------------------------------------------------------------------------------

namespace Generation

variable (generation : Generation) (kept : List Artifact) (store : σ)

/-- Emitting keeps pace: a factory that cannot be made fails on both sides, and one that can is offered
to both stores.
-/
theorem keepsPace_emit (injectable : Injectable)
    : KeepsPace write Prod.mk Prod.mk kept store
        (emit Writer.keeping injectable generation kept) (emit write injectable generation store) := by
  unfold emit
  cases Emission.factory? injectable with
  | none => exact .silent _ rfl rfl rfl
  | some factory =>
      have offered
          : KeepsPace write Prod.mk Prod.mk kept store
              ((Writer.keeping kept factory).lift fun store => (generation, store))
              ((write store factory).lift fun store => (generation, store)) :=
        (KeepsPace.offering factory).lift (fun () => generation) (fun _ _ => rfl) (fun _ _ => rfl)
      exact offered.andThen fun _ _ _ _ => .silent _ rfl rfl rfl

/-- All factories of a round are offered in order, by induction on the injectables. -/
theorem keepsPace_emitEach (injectables : List Injectable)
    : KeepsPace write Prod.mk Prod.mk kept store
        (emitEach Writer.keeping injectables generation kept)
        (emitEach write injectables generation store) := by
  induction injectables generalizing generation kept store with
  | nil => exact .silent _ rfl rfl rfl
  | cons injectable rest ih =>
      rw [emitEach, emitEach]
      refine (keepsPace_emit generation kept store injectable).andThen ?_
      intro generation kept store factory
      exact (ih generation kept store).map (factory :: ·)

/-- So does a round, since it offers factories and looks at no store. -/
theorem keepsPace_round (candidates : List Candidate)
    : KeepsPace write Prod.mk Prod.mk kept store
        (generation.round Writer.keeping candidates kept) (generation.round write candidates store) := by
  unfold round
  dsimp only
  split
  · exact .silent _ rfl rfl rfl
  · rename_i intake _
    refine KeepsPace.telling ?_ _
    exact (keepsPace_emitEach generation.begin kept store intake.accepted).andThen
      fun _ _ _ _ => .silent _ rfl rfl rfl

/-- At the end the component is offered, if there is one. -/
theorem keepsPace_finish
    : KeepsPace write (fun (_ : Unit) kept => kept) (fun _ store => store) kept store
        (generation.finish Writer.keeping kept) (generation.finish write store) := by
  unfold finish
  split
  · exact .silent () rfl rfl rfl
  · refine KeepsPace.telling ?_ _
    unfold complete
    split
    · exact .silent () rfl rfl rfl
    · rename_i component _
      exact (KeepsPace.offering component).andThen fun _ _ _ _ => .silent () rfl rfl rfl

end Generation

namespace Workplace

/-- A workplace about a store. -/
def around (rest : Generation × Index) (store : σ) : Workplace σ :=
  ⟨rest.1, rest.2, store⟩

variable (rest : Generation × Index) (kept : List Artifact) (store : σ)

/-- So does a round of a workplace, which adds the index. -/
theorem keepsPace_round
    : KeepsPace write around around kept store (round Writer.keeping (around rest kept))
        (round write (around rest store)) :=
  (Generation.keepsPace_round rest.1 kept store rest.2.candidates).lift
    (fun generation => (generation, rest.2)) (fun _ _ => rfl) (fun _ _ => rfl)

/-- Rounds keep pace, by induction on their number: what follows a round depends on no store. -/
theorem keepsPace_rounds (more : Nat)
    : KeepsPace write around around kept store (rounds Writer.keeping more (around rest kept))
        (rounds write more (around rest store)) := by
  induction more generalizing rest kept store with
  | zero => exact (keepsPace_round rest kept store).map fun _ => ()
  | succ more ih =>
      rw [rounds, rounds]
      refine (keepsPace_round rest kept store).andThen fun rest kept store round => ?_
      split
      · exact .silent _ rfl rfl rfl
      · have back
            : KeepsPace write around around kept store (takeBack round.emitted (around rest kept))
                (takeBack round.emitted (around rest store)) :=
          .silent (rest.1, _) rfl rfl rfl
        exact back.andThen fun rest kept store _ => ih rest kept store

/-- So does a run, by its rounds and its end. -/
theorem keepsPace_run
    : KeepsPace write around around kept store (run Writer.keeping (around rest kept))
        (run write (around rest store)) := by
  unfold run
  refine (keepsPace_rounds rest kept store _).andThen fun rest kept store _ => ?_
  exact (Generation.keepsPace_finish rest.1 kept store).lift (fun () => rest) (fun _ _ => rfl)
    (fun _ _ => rfl)

end Workplace

-----------------------------------------------------------------------------------------
-- What is offered
-----------------------------------------------------------------------------------------

/-- The end of a generation offers the component, or nothing. -/
theorem Generation.state_finish_keeping (generation : Generation) (kept : List Artifact)
    : ∃ component?,
        (generation.finish Writer.keeping kept).state = kept ++ Option.toList component?
        ∧ ∀ component ∈ component?,
            Emission.component generation.settings generation.injectables = .ok component := by
  unfold finish
  split
  · exact ⟨none, (List.append_nil kept).symm, by simp⟩
  · unfold complete
    split
    · exact ⟨none, (List.append_nil kept).symm, by simp⟩
    · rename_i component made
      exact ⟨some component, rfl, by simpa using made⟩

/-- So far factories have been offered and nothing else, one for each injectable. -/
structure Workplace.OffersFactories (settings : Settings) (workplace : Workplace (List Artifact))
    : Prop where
  settings : workplace.generation.settings = settings
  made : workplace.generation.HasMade workplace.store

namespace Workplace

variable {settings : Settings} {workplace : Workplace (List Artifact)}

/-- So it is after a further round, whether or not that succeeds. -/
theorem OffersFactories.round (offers : workplace.OffersFactories settings)
    : (round Writer.keeping workplace).state.OffersFactories settings := by
  obtain ⟨factories, offered, ends⟩ :=
    workplace.generation.roundEnds Writer.logs_keeping workplace.index.candidates workplace.store
  refine ⟨ends.settings_eq.trans offers.settings, ?_⟩
  have made := ends.hasMade offers.made
  rw [show workplace.store ++ factories = _ from offered.symm] at made
  exact made

/-- And after any number of them, by induction on their number. -/
theorem OffersFactories.rounds (offers : workplace.OffersFactories settings) (more : Nat)
    : (rounds Writer.keeping more workplace).state.OffersFactories settings := by
  induction more generalizing workplace with
  | zero => exact offers.round
  | succ more ih =>
      rw [Workplace.rounds]
      refine Reply.state_andThen offers.round fun round => ?_
      split
      · exact offers.round
      · have back
            : (takeBack round.emitted (Workplace.round Writer.keeping workplace).state).state.OffersFactories
                settings :=
          ⟨offers.round.settings, offers.round.made⟩
        exact Reply.state_andThen back fun _ => ih back

/-- All that a run offers to a store that keeps everything. -/
def offered (settings : Settings) (index : Index) : List Artifact :=
  (run Writer.keeping ⟨{ settings }, index, []⟩).state.store

/-- The part that the rounds have offered when the component is tried. -/
def offeredFactories (settings : Settings) (index : Index) : List Artifact :=
  (rounds Writer.keeping (settings.maxRounds - 1) ⟨{ settings }, index, []⟩).state.store

/-- A run offers factories, and behind them at most a component. -/
theorem offered_eq (settings : Settings) (index : Index)
    : ∃ (generation : Generation) (component? : Option Artifact),
        offered settings index = offeredFactories settings index ++ component?.toList
        ∧ generation.HasMade (offeredFactories settings index)
        ∧ ∀ component ∈ component?,
            Emission.component settings generation.injectables = .ok component := by
  have start : OffersFactories settings ⟨{ settings }, index, []⟩ := ⟨rfl, .nil, [], .nil, .nil⟩
  unfold offered offeredFactories run
  have before := start.rounds (settings.maxRounds - 1)
  dsimp only
  generalize rounds Writer.keeping (settings.maxRounds - 1) ⟨{ settings }, index, []⟩ = rounded
    at before ⊢
  obtain ⟨workplace, events, answer⟩ := rounded
  obtain ⟨same, made⟩ := before
  cases answer with
  | error failure => exact ⟨_, none, (List.append_nil _).symm, made, by simp⟩
  | ok =>
      obtain ⟨component?, state, ends⟩ :=
        workplace.generation.state_finish_keeping workplace.store
      rw [show workplace.generation.settings = settings from same] at ends
      exact ⟨_, component?, state, made, ends⟩

/-- A run that succeeds offers the factories of its rounds and then the component: as many artifacts as
it has accepted injectables, and one more.
-/
theorem offered_of_ok {settings : Settings} {index : Index} {summary : Summary}
    (done : (run Writer.keeping ⟨{ settings }, index, []⟩).result = .ok summary)
    : ∃ turns component,
        Completes settings index turns
          (run Writer.keeping ⟨{ settings }, index, []⟩).state.generation
        ∧ Emission.component settings
            (run Writer.keeping ⟨{ settings }, index, []⟩).state.generation.injectables
          = .ok component
        ∧ offered settings index = turns.flatMap Turn.factories ++ [component]
        ∧ (offered settings index).length = summary.injectables + 1 := by
  obtain ⟨turns, _, component, completes, rfl, made, written, rfl⟩ := run_eq_ok done
  rw [completes.counted.1] at made
  have offers : offered settings index = turns.flatMap Turn.factories ++ [component] :=
    (Writer.eq_append_of_written written).trans (List.nil_append _)
  refine ⟨turns, component, completes, made, offers, ?_⟩
  rw [offers, List.length_append, ← completes.made.length_eq,
    ← completes.kept.injectables.length_eq]
  rfl

end Workplace

end Wiring
