import Wiring.Container.Resolution

/-! Containers over one table of recipes, used side by side. Instances are numbered in the order in
which they are made, whichever container makes them.
-/

namespace Wiring

/-- Several containers with one table of constructors, and a count that gives identities. -/
structure Workbench where
  recipes : List Recipe
  containers : List Bindings
  /-- How many instances have been made. -/
  made : Nat := 0
  deriving Repr

/-- What can be done with one of the containers. -/
inductive Act
  /-- Sets up another container, without bindings. -/
  | setUp
  /-- Binds a new instance of the type. -/
  | bindNew (key : TypeKey) (label : Option String)
  | bind (value : Instance)
  | resolve (key : TypeKey)
  | resolveTyped (key : TypeKey)
  | reset
  deriving Repr

/-- What an act is answered with. -/
inductive Answer
  | done
  | bound (value : Instance)
  | resolved (outcome : Outcome Instance)
  /-- The resolution does not end. -/
  | endless
  /-- There is no such container. -/
  | noContainer
  deriving Repr

namespace Answer

/-- What an act tells. -/
def events : Answer → List Event
  | bound value => [.bound value.type.name]
  | resolved outcome => outcome.events
  | _ => []

end Answer

namespace Workbench

/-- One container in which nothing is bound. -/
def start (recipes : List Recipe) : Workbench :=
  ⟨recipes, [{}], 0⟩

/-- The container with a number. -/
def container? (workbench : Workbench) (index : Nat) : Option Container :=
  workbench.containers[index]?.map fun bindings => ⟨workbench.recipes, bindings⟩

/-- The workbench with the bindings of one container replaced. -/
def setBindings (workbench : Workbench) (index : Nat) (bindings : Bindings) : Workbench :=
  { workbench with containers := workbench.containers.set index bindings }

/-- The answer of a resolution, after which the instances it has made exist. -/
def settle (workbench : Workbench) : Option (Outcome Instance) → Workbench × Answer
  | some outcome => ({ workbench with made := outcome.made }, .resolved outcome)
  | none => (workbench, .endless)

/-- Binds an instance in one of the containers. -/
def bindIn (workbench : Workbench) (index : Nat) (bindings : Bindings) (value : Instance)
    : Workbench × Answer :=
  (workbench.setBindings index (bindings.insert value.type value), .bound value)

/-- Performs an act on one container. An act on a container that does not exist changes nothing. -/
def step (workbench : Workbench) (index : Nat) (act : Act) : Workbench × Answer :=
  match workbench.container? index with
  | none => (workbench, .noContainer)
  | some container =>
      match act with
      | .setUp => ({ workbench with containers := workbench.containers ++ [{}] }, .done)
      | .bindNew key label =>
          { workbench with made := workbench.made + 1 }.bindIn index container.bindings
            (.mk (workbench.made + 1) key label [])
      | .bind value => workbench.bindIn index container.bindings value
      | .resolve key => workbench.settle (container.resolve? workbench.made key)
      | .resolveTyped key => workbench.settle (container.resolveTyped? workbench.made key)
      | .reset => (workbench.setBindings index {}, .done)

/-- The answers to acts in order. -/
def run (workbench : Workbench) : List (Nat × Act) → Workbench × List Answer
  | [] => (workbench, [])
  | (index, act) :: rest =>
      let (workbench, answer) := workbench.step index act
      let (workbench, answers) := workbench.run rest
      (workbench, answer :: answers)

end Workbench

end Wiring
