import Wiring.Marked
import Wiring.Source.Condition
import Wiring.Source.Item

/-! What is known of a crate from the source files added so far: its declarations, modules and
imports by lexical scope, and the declarations that carry the marker.
-/

namespace Wiring

open Source

/-- What one import makes available. -/
inductive Import
  | named (name : String) (path : SpelledPath)
  | glob (path : SpelledPath)
  deriving DecidableEq, Inhabited, Repr

namespace Import

/-- The path itself, as the import of the last of `above` under `name`. -/
def named? (rooted : Bool) (above : List String) (name : String) : List Import :=
  if name = "_" then [] else [named name ⟨rooted, above⟩]

mutual

/-- What the tree below the segments `above` imports, in order. -/
def ofTree (rooted : Bool) (above : List String) : UseTree → List Import
  | .inside name tree => ofTree rooted (above ++ [name]) tree
  | .name "self" =>
      match above.getLast? with
      | some name => [named name ⟨rooted, above⟩]
      | none => []
  | .name name => [named name ⟨rooted, above ++ [name]⟩]
  | .rename "self" newName => named? rooted above newName
  | .rename name newName => named? rooted (above ++ [name]) newName
  | .glob => [glob ⟨rooted, above⟩]
  | .group trees => ofTrees rooted above trees

/-- What several trees import, in turn. -/
def ofTrees (rooted : Bool) (above : List String) : List UseTree → List Import
  | [] => []
  | tree :: rest => ofTree rooted above tree ++ ofTrees rooted above rest

end

/-- What an item imports; only items outside test builds do. -/
def ofItem : Item → List Import
  | .imports attributes _ rooted tree =>
      if isTestOnly attributes then [] else ofTree rooted [] tree
  | _ => []

/-- The name that an import binds and the path it stands for. -/
def binding? : Import → Option (String × SpelledPath)
  | named name path => some (name, path)
  | glob _ => none

/-- The module all of whose names are imported. -/
def glob? : Import → Option SpelledPath
  | named .. => none
  | glob path => some path

end Import

/-- The imports in force in the body of one module. -/
structure Scope where
  home : String
  imports : List Import
  deriving DecidableEq, Inhabited, Repr

namespace Scope

/-- The scope of a body: its module and all that its items import. -/
def ofItems (home : String) (items : List Item) : Scope :=
  ⟨home, items.flatMap Import.ofItem⟩

/-- The path that a name stands for; the last import of it counts. -/
def path? (scope : Scope) (name : String) : Option SpelledPath :=
  (scope.imports.filterMap Import.binding?).reverse.lookup name

/-- The modules all of whose names are imported, in the order written. -/
def globs (scope : Scope) : List SpelledPath :=
  scope.imports.filterMap Import.glob?

end Scope

/-- A public import, and the module it stands in. -/
structure Reexport where
  home : String
  reexported : Import
  deriving DecidableEq, Inhabited, Repr

/-- What is known of the sources. -/
structure Index where
  marker : String
  scopes : List Scope := []
  /-- Qualified names of the types declared. -/
  declared : List String := []
  modules : List String := []
  reexports : List Reexport := []
  marked : List Marked := []
  files : List FilePath := []
  deriving DecidableEq, Inhabited, Repr

namespace Index

/-- Whether a type of this qualified name is declared. -/
def declares (index : Index) (name : String) : Bool :=
  index.declared.contains name

/-- The qualified names of all types declared, each once, in ascending order. -/
def declaredNames (index : Index) : List String :=
  (index.declared.mergeSort fun left right => decide (left ≤ right)).eraseDups

/-- The last public import, in `home`, under the name. -/
def namedReexport? (index : Index) (home name : String) : Option SpelledPath :=
  ((index.reexports.filter (·.home = home)).filterMap (·.reexported.binding?)).reverse.lookup name

/-- The modules all of whose names a module makes visible. -/
def reexportedGlobs (index : Index) (home : String) : List SpelledPath :=
  (index.reexports.filter (·.home = home)).filterMap (·.reexported.glob?)

end Index

end Wiring
