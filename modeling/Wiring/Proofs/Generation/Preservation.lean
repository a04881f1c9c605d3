import Wiring.Proofs.Generation.Course

/-! What a run keeps. A run works on its store by writing factories and the component of its settings,
and in no other way. So what these writes keep, be the artifacts taken or refused, holds of the store
whatever becomes of the run.
-/

namespace Wiring

variable {σ : Type} {write : Writer σ} {settings : Settings} {good : σ → Prop}

/-- What a run with the settings may write: the factory of an injectable, or the component of some. -/
inductive MayWrite (settings : Settings) (artifact : Artifact) : Prop
  | factory {injectable} (made : Emission.factory? injectable = some artifact)
  | component {injectables} (made : Emission.component settings injectables = .ok artifact)

/-- Writing such an artifact keeps what is good about a store. -/
def Writer.Keeps (write : Writer σ) (settings : Settings) (good : σ → Prop) : Prop :=
  ∀ store artifact, MayWrite settings artifact → good store → good (write store artifact).state

namespace Generation

/-- A generation with the settings, beside a good store. -/
structure Beside (settings : Settings) (good : σ → Prop) (state : Generation × σ) : Prop where
  settings : state.1.settings = settings
  store : good state.2

variable {generation : Generation} {store : σ}

/-- Emitting writes a factory at most, which keeps what writing keeps. -/
theorem Beside.emit (beside : Beside settings good (generation, store))
    (keeps : write.Keeps settings good) (injectable : Injectable)
    : Beside settings good (Generation.emit write injectable generation store).state := by
  unfold Generation.emit
  cases made : Emission.factory? injectable with
  | none => exact beside
  | some factory =>
      have stored := keeps store factory (.factory made) beside.store
      exact Reply.state_andThen ⟨beside.settings, stored⟩ fun _ => ⟨beside.settings, stored⟩

/-- Emitting keeps the store good, by induction on the injectables. -/
theorem Beside.emitEach (beside : Beside settings good (generation, store))
    (keeps : write.Keeps settings good) (injectables : List Injectable)
    : Beside settings good (Generation.emitEach write injectables generation store).state := by
  induction injectables generalizing generation store with
  | nil => exact beside
  | cons injectable rest ih =>
      rw [Generation.emitEach]
      have first := beside.emit keeps injectable
      exact Reply.state_andThen first fun _ => ih first

/-- So does a round, by induction on what it emits. -/
theorem Beside.round (beside : Beside settings good (generation, store))
    (keeps : write.Keeps settings good) (candidates : List Candidate)
    : Beside settings good (generation.round write candidates store).state := by
  have begun : Beside settings good (generation.begin, store) := ⟨beside.settings, beside.store⟩
  unfold Generation.round
  dsimp only [Reply.telling]
  split
  · exact begun
  · have emitted := begun.emitEach keeps
    exact Reply.state_andThen (emitted _) fun _ => ⟨(emitted _).settings, (emitted _).store⟩

/-- The end of a generation writes a component at most. -/
theorem Beside.finish (beside : Beside settings good (generation, store))
    (keeps : write.Keeps settings good)
    : good (generation.finish write store).state := by
  unfold Generation.finish
  split
  · exact beside.store
  · unfold complete
    dsimp only [Reply.telling]
    split
    · exact beside.store
    · rename_i component made
      rw [beside.settings] at made
      have stored := keeps store component (.component made) beside.store
      exact Reply.state_andThen stored fun _ => stored

end Generation

namespace Workplace

/-- A workplace with the settings and a good store. -/
structure Beside (settings : Settings) (good : σ → Prop) (workplace : Workplace σ) : Prop where
  settings : workplace.generation.settings = settings
  store : good workplace.store

variable {workplace : Workplace σ}

/-- A round of a workplace keeps it as well, since indexing writes nothing. -/
theorem Beside.round (beside : workplace.Beside settings good) (keeps : write.Keeps settings good)
    : (workplace.round write).state.Beside settings good := by
  have start : Generation.Beside settings good (workplace.generation, workplace.store) :=
    ⟨beside.settings, beside.store⟩
  have round := start.round keeps workplace.index.candidates
  exact ⟨round.settings, round.store⟩

/-- One round after the other keeps the store good, by induction on their number. -/
theorem Beside.rounds (beside : workplace.Beside settings good) (keeps : write.Keeps settings good)
    (more : Nat)
    : (workplace.rounds write more).state.Beside settings good := by
  induction more generalizing workplace with
  | zero => exact beside.round keeps
  | succ more ih =>
      rw [Workplace.rounds]
      have first := beside.round keeps
      refine Reply.state_andThen first fun round => ?_
      split
      · exact first
      · have back : (takeBack round.emitted (workplace.round write).state).state.Beside settings good :=
          ⟨first.settings, first.store⟩
        exact Reply.state_andThen back fun _ => ih back

/-- Whatever becomes of a run, its store has been kept good. -/
theorem beside_run (keeps : write.Keeps settings good) (index : Index) {store : σ}
    (start : good store)
    : (run write ⟨{ settings }, index, store⟩).state.Beside settings good := by
  have beside : Beside settings good ⟨{ settings }, index, store⟩ := ⟨rfl, start⟩
  have rounds := beside.rounds keeps (settings.maxRounds - 1)
  have before : Generation.Beside settings good (_, _) := ⟨rounds.settings, rounds.store⟩
  unfold run
  exact Reply.state_andThen rounds fun _ => ⟨rounds.settings, before.finish keeps⟩

end Workplace

end Wiring
