import Wiring.Blueprint
import Wiring.Emission.Component
import Wiring.Generation.Basic
import Wiring.Store.Basic

/-! The end of a generation: the report on what injectables need, and the component. -/

namespace Wiring

/-- What a run reports when it is over. -/
structure Summary where
  rounds : Nat
  injectables : Nat
  /-- The qualified name of the component. -/
  component : String
  leftToHost : List TypeName
  cycle : Option (List TypeName)
  deriving DecidableEq, Repr

namespace Generation

variable {σ : Type}

/-- What the accepted injectables need. -/
def blueprint (generation : Generation) : Blueprint :=
  .ofInjectables generation.injectables

/-- Why no component can be made, before it is tried: declarations are still deferred, or there is a
cycle and the settings deny it.
-/
def obstacle? (generation : Generation) : Option Failure :=
  if generation.deferred.isEmpty then
    if generation.settings.denyCycles then
      generation.blueprint.firstCycle?.map Failure.cycle
    else none
  else
    some (.unresolved generation.rounds
      (generation.deferred.map fun marked => (marked.text, marked.location)))

/-- What is told about the needs of the injectables. -/
def needEvents (generation : Generation) : List Event :=
  generation.blueprint.firstCycle?.toList.map Event.cycle
    ++ (match generation.blueprint.leftToHost with
      | [] => []
      | types => [.leftToHost types])

/-- What is reported once the component is written. -/
def summary (generation : Generation) (component : Artifact) : Summary := {
  rounds := generation.rounds
  injectables := generation.injectables.length
  component := component.qualifiedName
  leftToHost := generation.blueprint.leftToHost
  cycle := generation.blueprint.firstCycle?
}

/-- Writes the component. -/
def complete (write : Writer σ) (generation : Generation) (store : σ) : Reply σ Summary :=
  match Emission.component generation.settings generation.injectables with
  | .error failure => .failed store failure
  | .ok component =>
      (write store component).andThen fun store _ =>
        .telling
          [.generated component.qualifiedName generation.injectables.length generation.rounds]
          (.done store (generation.summary component))

/-- Ends a run: with what stands in its way, or with the component and the summary. -/
def finish (write : Writer σ) (generation : Generation) (store : σ) : Reply σ Summary :=
  match generation.obstacle? with
  | some failure => .failed store failure
  | none => .telling generation.needEvents (complete write generation store)

end Generation

end Wiring
