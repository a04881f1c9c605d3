import Wiring.Container.Instance
import Wiring.Text.Join

/-! Instances supplied by hand, each under the key of a type. The last one under a key counts. -/

namespace Wiring

/-- The instances that are bound in a container, by their types. -/
structure Bindings where
  entries : List (TypeKey × Instance) := []
  deriving Inhabited, Repr

namespace Bindings

/-- The instance bound for a type. -/
def get? (bindings : Bindings) (key : TypeKey) : Option Instance :=
  bindings.entries.lookup key

/-- Whether an instance is bound for a type. -/
def contains (bindings : Bindings) (key : TypeKey) : Bool :=
  (bindings.get? key).isSome

/-- Stores an instance under a key, in place of the one that was there. -/
def insert (bindings : Bindings) (key : TypeKey) (value : Instance) : Bindings :=
  ⟨(key, value) :: bindings.entries.filter fun (other, _) => other ≠ key⟩

/-- The types that are bound. -/
def keys (bindings : Bindings) : List TypeKey :=
  bindings.entries.map (·.1)

/-- The names of the keys in ascending order. -/
def names (bindings : Bindings) : List String :=
  (bindings.keys.map TypeKey.name).mergeSort fun left right => decide (left ≤ right)

/-- How many types are bound. -/
def size (bindings : Bindings) : Nat :=
  bindings.entries.length

/-- The keys as they are shown when debugging. Two or more have no order, and so no fixed text. -/
def debugText? (bindings : Bindings) : Option String :=
  match bindings.keys with
  | [] => some "\x7b\x7d"
  | [key] => some ("\x7b" ++ key.debugText ++ "\x7d")
  | _ => none

/-- Taking one key's entries out leaves the lookup of every other key, by induction on the entries. -/
theorem lookup_filter_ne {key other : TypeKey} (distinct : other ≠ key)
    (entries : List (TypeKey × Instance))
    : (entries.filter fun (found, _) => found ≠ key).lookup other = entries.lookup other := by
  induction entries with
  | nil => rfl
  | cons entry rest ih =>
    obtain ⟨found, value⟩ := entry
    by_cases same : found = key
    · subst same
      have differs : (other == found) = false := by simpa using distinct
      simp only [ne_eq, decide_not] at ih
      simp [List.lookup_cons, differs, ih]
    · simp only [ne_eq, decide_not] at ih
      simp [List.lookup_cons, same, ih]

/-- After storing under a key, that key has the instance, and every other key has what it had. -/
theorem get?_insert (bindings : Bindings) (key other : TypeKey) (value : Instance)
    : (bindings.insert key value).get? other
      = if other = key then some value else bindings.get? other := by
  by_cases same : other = key
  · subst same
    simp [insert, get?]
  · have differs : (other == key) = false := by simpa using same
    simp only [insert, get?, List.lookup_cons, differs, lookup_filter_ne same, same, if_false]

end Bindings

end Wiring
