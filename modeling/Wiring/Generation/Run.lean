import Wiring.Generation.Finish
import Wiring.Generation.Round
import Wiring.Index.Resolve
import Wiring.SourceTree

/-! A whole generation from an index. Rounds follow one another until nothing is deferred, a round
makes nothing, or there have been enough of them. The factories of a round are added to the index
before the next one, so that declarations which mention generated types resolve then.
-/

namespace Wiring

/-- A factory as a source file of the module it belongs to. -/
def Artifact.source (artifact : Artifact) : SourceFile :=
  ⟨artifact.relativePath, artifact.home, artifact.content⟩

/-- What a run works on. -/
structure Workplace (σ : Type) where
  generation : Generation
  index : Index
  store : σ

namespace Workplace

variable {σ : Type}

/-- One round over the candidates that the sources show by now. -/
def round (write : Writer σ) (workplace : Workplace σ) : Reply (Workplace σ) Round :=
  (workplace.generation.round write workplace.index.candidates workplace.store).lift
    fun (generation, store) => { workplace with generation, store }

/-- Adds the factories that a round has made to the index. -/
def takeBack (artifacts : List Artifact) (workplace : Workplace σ) : Reply (Workplace σ) Unit :=
  (workplace.index.takeEach (artifacts.map Artifact.source)).lift
    fun index => { workplace with index }

/-- One round and at most `more` further ones. -/
def rounds (write : Writer σ) : Nat → Workplace σ → Reply (Workplace σ) Unit
  | 0, workplace => (workplace.round write).map fun _ => ()
  | more + 1, workplace =>
      (workplace.round write).andThen fun workplace round =>
        if round.deferred.isEmpty || !round.progressed then .done workplace ()
        else (workplace.takeBack round.emitted).andThen fun workplace _ => rounds write more workplace

/-- The rounds, and then the component. -/
def run (write : Writer σ) (workplace : Workplace σ) : Reply (Workplace σ) Summary :=
  (workplace.rounds write (workplace.generation.settings.maxRounds - 1)).andThen
    fun workplace _ =>
      (workplace.generation.finish write workplace.store).lift
        fun store => { workplace with store }

end Workplace

/-- Generates with the settings from what the index holds. -/
def Generation.run {σ : Type} (write : Writer σ) (settings : Settings) (index : Index) (store : σ)
    : Reply (Index × σ) Summary :=
  (Workplace.run write ⟨{ settings }, index, store⟩).lift
    fun workplace => (workplace.index, workplace.store)

end Wiring
