import Wiring.Proofs.Index.Placement

/-! Bodies that are walked item by item. The scope of a body may as well be opened empty, and be given the
imports of each `use` item when the walk comes to it. Nothing that is added looks at the imports of a scope,
so the walk leaves the same index as opening the scope with all imports of the body.
-/

namespace Wiring.Index

open Source

-----------------------------------------------------------------------------------------
-- The walk
-----------------------------------------------------------------------------------------

/-- Opens a scope that holds no imports, under the next number. -/
def openEmptyScope (index : Index) (home : String) : Index :=
  { index with scopes := index.scopes ++ [⟨home, []⟩] }

/-- Adds imports to the scope of the given number, behind those that it holds. -/
def importInto (index : Index) (scope : Nat) (imports : List Import) : Index :=
  { index with
    scopes :=
      index.scopes.modify scope fun found => { found with imports := found.imports ++ imports } }

mutual

/-- Adds an item that stands in `home`, what it imports to the scope of the given number. -/
def walkItem (file : FilePath) (home : String) (scope : Nat) (index : Index) (item : Item)
    : Index :=
  if item.isTestOnly then index
  else
    match item with
    | .imports _ exported rooted tree =>
        let index := index.importInto scope (Import.ofTree rooted [] tree)
        if exported then index.reexport home (Import.ofTree rooted [] tree) else index
    | .submodule _ name body =>
        let inner := Segments.within home name
        let index := index.registerModule inner
        walkItems file inner index.scopes.length (index.openEmptyScope inner) body
    | other => addItem file home scope index other

/-- Adds the items of a body one behind the other. -/
def walkItems (file : FilePath) (home : String) (scope : Nat) (index : Index) (items : List Item)
    : Index :=
  match items with
  | [] => index
  | item :: rest => walkItems file home scope (walkItem file home scope index item) rest

end

/-- Adds the items of a file that has been parsed, walking its bodies. -/
def walkParsed (index : Index) (file : FilePath) (home : String) (items : List Item) : Index :=
  let index := index.registerModule home
  let index := walkItems file home index.scopes.length (index.openEmptyScope home) items
  { index with files := index.files ++ [file] }

-----------------------------------------------------------------------------------------
-- Imports may be added earlier or later
-----------------------------------------------------------------------------------------

variable {index : Index} {scope number : Nat}

/-- What is changed in the front of a list leaves the rest, by induction on the front. -/
theorem modify_append_of_lt {α : Type} (change : α → α) {position : Nat} {front : List α}
    (below : position < front.length) (rest : List α)
    : (front ++ rest).modify position change = front.modify position change ++ rest := by
  induction front generalizing position with
  | nil => contradiction
  | cons first front ih =>
      cases position with
      | zero => rfl
      | succ position =>
          rw [List.cons_append, List.modify_succ_cons, ih (Nat.lt_of_succ_lt_succ below),
            List.modify_succ_cons, List.cons_append]

/-- Adding no imports changes nothing. -/
theorem importInto_nil (index : Index) (scope : Nat) : index.importInto scope [] = index := by
  have same : (fun found : Scope => { found with imports := found.imports ++ [] }) = id := by
    funext found
    simp
  rw [importInto, same, List.modify_id]

/-- Importing leaves the marker that is looked for. -/
@[simp]
theorem importInto_marker (index : Index) (scope : Nat) (imports : List Import)
    : (index.importInto scope imports).marker = index.marker :=
  rfl

/-- Imports that are added to one scope in two steps may be added in one. -/
theorem importInto_importInto (index : Index) (scope : Nat) (first second : List Import)
    : (index.importInto scope first).importInto scope second
      = index.importInto scope (first ++ second) := by
  simp [importInto, List.modify_modify_eq, Function.comp_def]

/-- The number of a scope that is opened is below the number of scopes from then on. -/
theorem length_lt_openEmptyScope (index : Index) (home : String)
    : index.scopes.length < (index.openEmptyScope home).scopes.length := by
  simp [openEmptyScope]

/-- What is imported into the scope that was opened last is what it might have been opened with. -/
theorem importInto_openEmptyScope (index : Index) (home : String) (items : List Item)
    : (index.openEmptyScope home).importInto index.scopes.length (items.flatMap Import.ofItem)
      = index.openScope home items := by
  simp [importInto, openEmptyScope, openScope, Scope.ofItems, List.modify_eq_take_drop]

section

variable (index) (below : number < index.scopes.length) (imports : List Import) (file : FilePath)
  (home : String) (scope : Nat)

include below in
/-- Opening another scope leaves those before it, so it may come first. -/
theorem openScope_importInto (items : List Item)
    : (index.importInto number imports).openScope home items
      = (index.openScope home items).importInto number imports := by
  simp only [openScope, importInto, modify_append_of_lt _ below]

/-- Marking looks at no scope. -/
theorem markOther_importInto (what : String) (attributes : List Attribute) (name : String)
    (line : Nat)
    : (index.importInto number imports).markOther file home scope what attributes name line
      = (index.markOther file home scope what attributes name line).importInto number imports := by
  unfold markOther
  rw [importInto_marker]
  split <;> rfl

/-- The functions of a block are marked without a look at scopes, by induction on the members. -/
theorem addMembers_importInto (block : ImplBlock) (members : List Member)
    : members.foldl (addMember file home scope block) (index.importInto number imports)
      = (members.foldl (addMember file home scope block) index).importInto number imports := by
  induction members generalizing index with
  | nil => rfl
  | cons member rest ih =>
      have first
          : (index.importInto number imports).addMember file home scope block member
            = (index.addMember file home scope block member).importInto number imports := by
        cases member with
        | other attributes => rfl
        | function attributes signature =>
            unfold addMember
            dsimp only
            rw [importInto_marker]
            split <;> rfl
      rw [List.foldl_cons, List.foldl_cons, first, ih]

end

mutual

/-- An item may be added before or after imports of a scope that is there already, by cases of the item:
nothing that is added looks at imports, and further scopes are opened behind that one.
-/
theorem addItem_importInto {index : Index} {scope : Nat} (below : number < index.scopes.length)
    (imports : List Import) (file : FilePath) (home : String) (item : Item)
    : addItem file home scope (index.importInto number imports) item
      = (addItem file home scope index item).importInto number imports := by
  unfold addItem
  split
  · rfl
  · cases item with
    | imports attributes exported rooted tree => cases exported <;> rfl
    | type attributes kind name line =>
        exact markOther_importInto (index.declare home name) imports ..
    | trait attributes name line members =>
        exact markOther_importInto (index.declare home name) imports ..
    | function attributes signature => exact markOther_importInto index imports ..
    | submodule attributes name body =>
        let inner := Segments.within home name
        let opened := (index.registerModule inner).openScope inner body
        have longer : opened.scopes.length = index.scopes.length + 1 := by
          simp [opened, openScope, registerModule]
        have number_eq
            : ((index.importInto number imports).registerModule inner).scopes.length
              = index.scopes.length :=
          List.length_modify ..
        have opening
            : ((index.importInto number imports).registerModule inner).openScope inner body
              = opened.importInto number imports :=
          openScope_importInto (index.registerModule inner) below imports inner body
        dsimp only
        rw [number_eq, opening]
        exact addItems_importInto (by omega) imports file inner (by omega) body
    | fileModule attributes name => rfl
    | implementation attributes block =>
        exact addMembers_importInto index imports file home scope block block.members
    | other attributes => rfl

/-- So may the items of a body, one behind the other. -/
theorem addItems_importInto {index : Index} {scope : Nat} (below : number < index.scopes.length)
    (imports : List Import) (file : FilePath) (home : String) (here : scope < index.scopes.length)
    (items : List Item)
    : addItems file home scope (index.importInto number imports) items
      = (addItems file home scope index items).importInto number imports := by
  cases items with
  | nil => rfl
  | cons item rest =>
      unfold addItems
      have grown := (enlarged_addItem file home here item).scopes
      rw [addItem_importInto below imports file home item]
      exact addItems_importInto (Nat.lt_of_lt_of_le below grown) imports file home
        (Nat.lt_of_lt_of_le here grown) rest

end

-----------------------------------------------------------------------------------------
-- The walk leaves the same index
-----------------------------------------------------------------------------------------

/-- In a new scope the imports of a body may come before its items instead of behind them. -/
theorem importInto_addItems (index : Index) (file : FilePath) (home : String) (items : List Item)
    : (addItems file home index.scopes.length (index.openEmptyScope home) items).importInto
          index.scopes.length (items.flatMap Import.ofItem)
      = addItems file home index.scopes.length (index.openScope home items) items := by
  have here := length_lt_openEmptyScope index home
  rw [← addItems_importInto here _ file home here items, importInto_openEmptyScope]

/-- An item of a test build imports nothing. -/
theorem ofItem_of_isTestOnly {item : Item} (skipped : item.isTestOnly = true)
    : Import.ofItem item = [] := by
  cases item with
  | imports => exact if_pos skipped
  | _ => rfl

mutual

/-- Walking an item adds it and then what it imports, by cases of the item. The body of a module is walked in
a scope of its own, whose imports may come before its items just as well.
-/
theorem walkItem_eq {index : Index} {scope : Nat} (file : FilePath) (home : String) (item : Item)
    : walkItem file home scope index item
      = (addItem file home scope index item).importInto scope (Import.ofItem item) := by
  unfold walkItem
  by_cases skipped : item.isTestOnly = true
  · unfold addItem
    rw [if_pos skipped, if_pos skipped, ofItem_of_isTestOnly skipped, importInto_nil]
  · rw [if_neg skipped]
    cases item with
    | imports attributes exported rooted tree =>
        have imports
            : Import.ofItem (.imports attributes exported rooted tree)
              = Import.ofTree rooted [] tree :=
          if_neg skipped
        unfold addItem
        rw [if_neg skipped, imports]
        cases exported <;> rfl
    | submodule attributes name body =>
        let inner := Segments.within home name
        let entered := index.registerModule inner
        unfold addItem
        rw [if_neg skipped]
        refine .trans ?_ (importInto_nil _ scope).symm
        exact (walkItems_eq file inner (length_lt_openEmptyScope entered inner) body).trans
          (importInto_addItems entered file inner body)
    | type | trait | function | fileModule | implementation | other =>
        exact (importInto_nil _ scope).symm

/-- Walking items adds them and then what they import, one behind the other. -/
theorem walkItems_eq {index : Index} {scope : Nat} (file : FilePath) (home : String)
    (here : scope < index.scopes.length) (items : List Item)
    : walkItems file home scope index items
      = (addItems file home scope index items).importInto scope
          (items.flatMap Import.ofItem) := by
  cases items with
  | nil => exact (importInto_nil index scope).symm
  | cons item rest =>
      have later := Nat.lt_of_lt_of_le here (enlarged_addItem file home here item).scopes
      have imported
          : scope
            < ((addItem file home scope index item).importInto scope
                (Import.ofItem item)).scopes.length := by
        simpa [importInto] using later
      unfold walkItems addItems
      rw [walkItem_eq, walkItems_eq file home imported rest,
        addItems_importInto later _ file home later rest, importInto_importInto, List.flatMap_cons]

end

/-- Walking a file leaves the same index as adding it. -/
theorem walkParsed_eq (index : Index) (file : FilePath) (home : String) (items : List Item)
    : index.walkParsed file home items = index.addParsed file home items := by
  have entered := length_lt_openEmptyScope (index.registerModule home) home
  unfold walkParsed addParsed
  dsimp only
  rw [walkItems_eq file home entered items, importInto_addItems]

end Wiring.Index
