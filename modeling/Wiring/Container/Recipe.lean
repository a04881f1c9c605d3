import Wiring.Container.Instance
import Wiring.Event

/-! Recipes: how an instance is made from others. -/

namespace Wiring

/-- An entry of the table of constructors. -/
structure Recipe where
  /-- The type it is looked up for. -/
  key : TypeKey
  parameters : List TypeKey
  /-- The type of what it makes. -/
  makes : TypeKey := key
  /-- What the constructor itself tells. -/
  notes : List Event := []
  deriving DecidableEq, Repr

/-- A call of a constructor: what it makes, and what it is handed. -/
structure Call where
  makes : TypeKey
  arguments : List Instance
  deriving Repr

namespace Recipe

/-- The recipe that counts for a key: the last one that has it. -/
def find? (recipes : List Recipe) (key : TypeKey) : Option Recipe :=
  recipes.reverse.find? fun recipe => recipe.key = key

/-- A recipe that is found is one of the table and is listed under its key. -/
theorem mem_of_find? {recipes : List Recipe} {key : TypeKey} {recipe : Recipe}
    (found : find? recipes key = some recipe)
    : recipe ∈ recipes ∧ recipe.key = key := by
  have same : recipe.key = key := by simpa using List.find?_some found
  exact ⟨List.mem_reverse.mp (List.mem_of_find?_eq_some found), same⟩

/-- The keys that have a recipe, each once. -/
def keys (recipes : List Recipe) : List TypeKey :=
  (recipes.map Recipe.key).eraseDups

end Recipe

end Wiring
