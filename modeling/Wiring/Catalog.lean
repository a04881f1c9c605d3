/-! Entries under names, in ascending order of the names. -/

namespace Wiring

/-- Values under names. As long as it grows by `insert`, the names ascend and none of them occurs
twice.
-/
structure Catalog (α : Type) where
  entries : List (String × α) := []
  deriving DecidableEq, Inhabited, Repr

namespace Catalog

variable {α : Type}

/-- The entries with one more, in its place, or with the value of an existing name replaced. -/
def insertInto (name : String) (value : α) : List (String × α) → List (String × α)
  | [] => [(name, value)]
  | (first, held) :: rest =>
      if name = first then (name, value) :: rest
      else if name < first then (name, value) :: (first, held) :: rest
      else (first, held) :: insertInto name value rest

/-- Sets the entry under a name. -/
def insert (catalog : Catalog α) (name : String) (value : α) : Catalog α :=
  ⟨insertInto name value catalog.entries⟩

/-- The value of a name. -/
def get? (catalog : Catalog α) (name : String) : Option α :=
  catalog.entries.lookup name

/-- The names, in ascending order. -/
def names (catalog : Catalog α) : List String :=
  catalog.entries.map (·.1)

/-- The values, in the order of their names. -/
def values (catalog : Catalog α) : List α :=
  catalog.entries.map (·.2)

/-- Whether a name has a value. -/
def contains (catalog : Catalog α) (name : String) : Bool :=
  catalog.names.contains name

/-- How many names have a value. -/
def size (catalog : Catalog α) : Nat :=
  catalog.entries.length

/-- A catalog of entries, of which a later one under the same name counts. -/
def ofList (entries : List (String × α)) : Catalog α :=
  entries.foldl (fun catalog (name, value) => catalog.insert name value) {}

/-- A value that is put in is found, by the cases of the insertion. -/
theorem lookup_insertInto_self (name : String) (value : α) (entries : List (String × α))
    : (insertInto name value entries).lookup name = some value := by
  fun_induction insertInto name value entries with
  | case1 => simp
  | case2 => simp
  | case3 => simp
  | case4 first held rest distinct _ ih =>
    have differs : (name == first) = false := by simpa using distinct
    simp [List.lookup_cons, differs, ih]

/-- The values of the other names stay, since the insertion leaves their entries where it goes. -/
theorem lookup_insertInto_of_ne {name other : String} (distinct : other ≠ name) (value : α)
    (entries : List (String × α))
    : (insertInto name value entries).lookup other = entries.lookup other := by
  have differs : (other == name) = false := by simpa using distinct
  fun_induction insertInto name value entries with
  | case1 => simp [List.lookup_cons, differs]
  | case2 held rest => simp [List.lookup_cons, differs]
  | case3 => simp [List.lookup_cons, differs]
  | case4 first held rest _ _ ih => simp [List.lookup_cons, ih]

/-- After setting an entry its name has it, and every other name has what it had. -/
theorem get?_insert (catalog : Catalog α) (name other : String) (value : α)
    : (catalog.insert name value).get? other
      = if other = name then some value else catalog.get? other := by
  by_cases same : other = name
  · subst same
    simp [insert, get?, lookup_insertInto_self]
  · simp [insert, get?, same, lookup_insertInto_of_ne same]

end Catalog

end Wiring
