import Wiring.Injectable

/-! The static view of what injectables need: from each target to its parameters, targets in
ascending order. It serves reports alone; resolving never looks at it.
-/

namespace Wiring

/-- The types that can be constructed, each with the types it needs. -/
structure Blueprint where
  needs : List (TypeName × List TypeName)
  deriving DecidableEq, Inhabited, Repr

namespace Blueprint

/-- The blueprint of the injectables; of those with one target the last counts. -/
def ofInjectables (injectables : List Injectable) : Blueprint :=
  ⟨(Injectable.collect injectables).map fun injectable =>
    (injectable.target, injectable.parameters)⟩

/-- How many types can be constructed. -/
def size (blueprint : Blueprint) : Nat :=
  blueprint.needs.length

/-- The types that can be constructed. -/
def targets (blueprint : Blueprint) : List TypeName :=
  blueprint.needs.map (·.1)

/-- What a type needs; nothing, if it cannot be constructed. -/
def parametersOf (blueprint : Blueprint) (type : TypeName) : List TypeName :=
  (blueprint.needs.lookup type).getD []

/-- Adds a type to an ascending list of types, once. -/
def insertType (type : TypeName) : List TypeName → List TypeName
  | [] => [type]
  | first :: rest =>
      if type = first then first :: rest
      else if type < first then type :: first :: rest
      else first :: insertType type rest

/-- The parameters that are no target, ascending: the host has to bind them. -/
def leftToHost (blueprint : Blueprint) : List TypeName :=
  ((blueprint.needs.flatMap (·.2)).filter fun type => !blueprint.targets.contains type).foldl
    (fun types type => insertType type types) []

/-- What a search has found: a cycle, or the types that lead to none. -/
inductive Search
  | cycle (path : List TypeName)
  | clear (done : List TypeName)
  deriving Repr

/-- The part of the path that starts at `type`, closed by it. -/
def closeAt (type : TypeName) (path : List TypeName) : List TypeName :=
  path.dropWhile (· ≠ type) ++ [type]

/-- Searches below each of the types in turn; `visit` searches below one that is neither on the path
nor done.
-/
def searchEach (visit : List TypeName → TypeName → Search) (path : List TypeName)
    : List TypeName → List TypeName → Search
  | done, [] => .clear done
  | done, type :: rest =>
      if path.contains type then .cycle (closeAt type path)
      else if done.contains type then searchEach visit path done rest
      else
        match visit done type with
        | .cycle found => .cycle found
        | .clear done => searchEach visit path done rest

/-- Searches below `type`, reached over `path`, in the order of its parameters. -/
def searchBelow (blueprint : Blueprint)
    : Nat → List TypeName → List TypeName → TypeName → Search
  | 0, _, done, _ => .clear done
  | fuel + 1, path, done, type =>
      let path := path ++ [type]
      match searchEach (searchBelow blueprint fuel path) path done (blueprint.parametersOf type) with
      | .cycle found => .cycle found
      | .clear done => .clear (done ++ [type])

/-- The first cycle met, as the path `A, B, …, A`, going through the targets in ascending order and
below each of them depth first. Only targets have parameters, so a path without repetition visits at
most one type more than there are targets.
-/
def firstCycle? (blueprint : Blueprint) : Option (List TypeName) :=
  match searchEach (searchBelow blueprint (blueprint.size + 1) []) [] [] blueprint.targets with
  | .cycle path => some path
  | .clear _ => none

end Blueprint

end Wiring
