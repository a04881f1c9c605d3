import Wiring.Container.Bindings
import Wiring.Container.Recipe

/-! Resolving a key. What is bound is taken as it is. Everything else is made anew by its recipe,
from parameters that are resolved in order, and nothing that is made is kept for a second use.
-/

namespace Wiring

/-- Why a resolution fails. -/
inductive ResolutionFault
  /-- The type has neither a binding nor a recipe. -/
  | missing (key : TypeKey)
  /-- What stands for the type is of another one. -/
  | mismatch (key : TypeKey)
  deriving DecidableEq, Inhabited, Repr

namespace ResolutionFault

/-- The type that a resolution fails at. -/
def key : ResolutionFault → TypeKey
  | missing key | mismatch key => key

/-- What is reported of a failed resolution. -/
def message : ResolutionFault → String
  | missing key => "No binding for " ++ key.name
  | mismatch key => "Failed to downcast instance to " ++ key.name

end ResolutionFault

/-- What a resolution has led to. -/
structure Outcome (α : Type) where
  /-- How many instances have been made by then, those before the resolution included. -/
  made : Nat
  /-- The calls of constructors, in order. -/
  calls : List Call
  events : List Event
  result : Except ResolutionFault α
  deriving Repr

namespace Outcome

variable {α β : Type}

/-- Goes on with `next` unless the resolution failed. It may go on without end. -/
def andThen (outcome : Outcome α) (next : Nat → α → Option (Outcome β)) : Option (Outcome β) :=
  match outcome.result with
  | .error fault => some { outcome with result := .error fault }
  | .ok value =>
      (next outcome.made value).map fun rest =>
        { rest with calls := outcome.calls ++ rest.calls, events := outcome.events ++ rest.events }

/-- Refuses an instance that is not of the type. -/
def typed (key : TypeKey) (outcome : Outcome Instance) : Outcome Instance :=
  match outcome.result with
  | .error _ => outcome
  | .ok value =>
      if value.type = key then outcome else { outcome with result := .error (.mismatch key) }

end Outcome

/-- A table of constructors and what is bound beside it. -/
structure Container where
  recipes : List Recipe
  bindings : Bindings := {}
  deriving Repr

namespace Container

/-- Makes an instance out of its parts. -/
def construct (recipe : Recipe) (made : Nat) (parts : List Instance) : Outcome Instance := {
  made := made + 1
  calls := [⟨recipe.makes, parts⟩]
  events := recipe.notes
  result := .ok (.mk (made + 1) recipe.makes none parts)
}

/-- Resolves keys in order, up to the first failure. -/
def resolveEach (resolve : Nat → TypeKey → Option (Outcome Instance))
    : Nat → List TypeKey → Option (Outcome (List Instance))
  | made, [] => some ⟨made, [], [], .ok []⟩
  | made, first :: rest =>
      (resolve made first).bind fun outcome =>
        (outcome.typed first).andThen fun made value =>
          (resolveEach resolve made rest).map fun outcome =>
            { outcome with result := outcome.result.map (value :: ·) }

/-- Resolves a key when `made` instances exist. Nothing is answered when recipes go deeper than
`depth`.
-/
def resolveWithin (container : Container) : Nat → Nat → TypeKey → Option (Outcome Instance)
  | 0, _, _ => none
  | depth + 1, made, key =>
      match container.bindings.get? key with
      | some value => some ⟨made, [], [.tookBound key.name], .ok value⟩
      | none =>
          match Recipe.find? container.recipes key with
          | none => some ⟨made, [], [], .error (.missing key)⟩
          | some recipe =>
              (resolveEach (resolveWithin container depth) made recipe.parameters).bind
                fun outcome =>
                  ({ outcome with events := .constructing key.name :: outcome.events }).andThen
                    fun made parts => some (construct recipe made parts)

/-- Recipes that go deeper than there are keys with a recipe never end. -/
def depthLimit (container : Container) : Nat :=
  container.recipes.length + 1

/-- Resolves a key; nothing is answered when that does not end. -/
def resolve? (container : Container) (made : Nat) (key : TypeKey) : Option (Outcome Instance) :=
  container.resolveWithin container.depthLimit made key

/-- Resolves a key to an instance of its own type. -/
def resolveTyped? (container : Container) (made : Nat) (key : TypeKey)
    : Option (Outcome Instance) :=
  (container.resolve? made key).map (Outcome.typed key)

/-- Binds an instance under a type. -/
def bind (container : Container) (key : TypeKey) (value : Instance) : Container :=
  { container with bindings := container.bindings.insert key value }

/-- Takes back all bindings. -/
def reset (container : Container) : Container :=
  { container with bindings := {} }

/-- Whether an instance is bound for a type. -/
def isBound (container : Container) (key : TypeKey) : Bool :=
  container.bindings.contains key

/-- Whether the table has a constructor for a type. -/
def canConstruct (container : Container) (key : TypeKey) : Bool :=
  (Recipe.find? container.recipes key).isSome

/-- The container as it is shown when debugging, if its bindings have a fixed text. -/
def debugText? (container : Container) : Option String :=
  container.bindings.debugText?.map fun bindings =>
    "Resolver \x7b overrides: " ++ bindings ++ ", constructible: "
      ++ toString (Recipe.keys container.recipes).length ++ " \x7d"

end Container

end Wiring
