import Wiring.Emission.Factory
import Wiring.Generation.Basic
import Wiring.Intake
import Wiring.Store.Basic

/-! One round: the rulings on all candidates come before the first write, so that a single invalid
declaration keeps the store as it was.
-/

namespace Wiring

/-- What a round has made, and what it leaves to a later one. -/
structure Round where
  emitted : List Artifact
  deferred : List Marked
  deriving DecidableEq, Repr

/-- Whether the round has made anything. -/
def Round.progressed (round : Round) : Bool :=
  !round.emitted.isEmpty

namespace Generation

variable {σ : Type}

/-- Writes the factory of an injectable and then accepts the injectable. -/
def emit (write : Writer σ) (injectable : Injectable) (generation : Generation) (store : σ)
    : Reply (Generation × σ) Artifact :=
  match Emission.factory? injectable with
  | none => .failed (generation, store) .notAnIdentifier
  | some artifact =>
      ((write store artifact).lift fun store => (generation, store)).andThen
        fun (generation, store) _ =>
          .telling [.emitted artifact.qualifiedName]
            (.done (generation.accept injectable, store) artifact)

/-- Emits injectables in order, up to the first failure. -/
def emitEach (write : Writer σ)
    : List Injectable → Generation → σ → Reply (Generation × σ) (List Artifact)
  | [], generation, store => .done (generation, store) []
  | first :: rest, generation, store =>
      (emit write first generation store).andThen fun (generation, store) artifact =>
        (emitEach write rest generation store).map (artifact :: ·)

/-- Counts a round that begins. -/
def begin (generation : Generation) : Generation :=
  { generation with rounds := generation.rounds + 1 }

/-- What the round does once its rulings are known to hold nothing invalid. -/
def takeIn (write : Writer σ) (candidates : List Candidate) (intake : Intake)
    (generation : Generation) (store : σ)
    : Reply (Generation × σ) Round :=
  (emitEach write intake.accepted generation store).andThen fun (generation, store) emitted =>
    .telling [.roundDone generation.rounds emitted.length intake.deferred.length]
      (.done (generation.settle candidates intake.deferred, store) ⟨emitted, intake.deferred⟩)

/-- One round over all candidates: what they are ruled to be is told, and complaints end it. -/
def round (write : Writer σ) (candidates : List Candidate) (generation : Generation) (store : σ)
    : Reply (Generation × σ) Round :=
  let generation := generation.begin
  let rulings := Intake.rulings generation.processed generation.injectables candidates
  .telling (Intake.events rulings)
    (match Intake.ofRulings rulings with
    | .error diagnostics => .failed (generation, store) (.invalid diagnostics)
    | .ok intake => takeIn write candidates intake generation store)

end Generation

end Wiring
