import Wiring.SourceTree

/-! What a source file adds to an index. It is the same whatever the index holds already, except that
scopes are numbered on from those of the index; so an index of many files is what the files add, one
behind the other.
-/

namespace Wiring

open Source

/-- The same declaration, found in the scope of the number. -/
def Marked.atScope (marked : Marked) (scope : Nat) : Marked :=
  { marked with scope }

/-- The same declaration, in an index with so many scopes in front of its own. -/
def Marked.behind (scopes : Nat) (marked : Marked) : Marked :=
  marked.atScope (scopes + marked.scope)

namespace Index

-----------------------------------------------------------------------------------------
-- What marking leaves alone
-----------------------------------------------------------------------------------------

/-- Marking otherwise changes the marked declarations alone. -/
theorem exists_markOther_eq (index : Index) (file : FilePath) (home : String) (scope : Nat)
    (what : String) (attributes : List Attribute) (name : String) (line : Nat)
    : ∃ marked, index.markOther file home scope what attributes name line = { index with marked } := by
  unfold markOther
  split
  · exact ⟨_, rfl⟩
  · exact ⟨_, rfl⟩

/-- Of an index, members change the marked declarations alone, by induction on the members. -/
theorem exists_addMembers_eq (index : Index) (file : FilePath) (home : String) (scope : Nat)
    (block : ImplBlock) (members : List Member)
    : ∃ marked, members.foldl (addMember file home scope block) index = { index with marked } := by
  induction members generalizing index with
  | nil => exact ⟨_, rfl⟩
  | cons member rest ih =>
      have first : ∃ marked, addMember file home scope block index member = { index with marked } := by
        cases member with
        | other attributes => exact ⟨_, rfl⟩
        | function attributes signature =>
            unfold addMember
            dsimp only
            split
            · exact ⟨_, rfl⟩
            · exact ⟨_, rfl⟩
      obtain ⟨marked, first⟩ := first
      rw [List.foldl_cons, first]
      exact ih { index with marked }

-----------------------------------------------------------------------------------------
-- Enlarging an index from a file
-----------------------------------------------------------------------------------------

/-- The later index has more scopes, and more marked declarations of the file in them. -/
structure Enlarged (file : FilePath) (before after : Index) : Prop where
  marker : after.marker = before.marker
  scopes : before.scopes.length ≤ after.scopes.length
  marked
    : ∃ more,
        after.marked = before.marked ++ more
        ∧ ∀ marked ∈ more, marked.scope < after.scopes.length ∧ marked.location.file = file

namespace Enlarged

variable {file : FilePath} {before middle after : Index} {scope : Nat}

/-- Nothing is marked by a change that adds at most scopes. -/
theorem ofSame (marker : after.marker = before.marker)
    (scopes : before.scopes.length ≤ after.scopes.length) (marked : after.marked = before.marked)
    : Enlarged file before after :=
  ⟨marker, scopes, [], by simpa using marked, by simp⟩

/-- An index is enlarged by nothing. -/
theorem refl (index : Index) : Enlarged file index index :=
  ofSame rfl (Nat.le_refl _) rfl

/-- Enlarging composes: new records stand behind the old ones, in scopes that are still there. -/
theorem trans (first : Enlarged file before middle) (second : Enlarged file middle after)
    : Enlarged file before after where
  marker := second.marker.trans first.marker
  scopes := Nat.le_trans first.scopes second.scopes
  marked := by
    obtain ⟨more, grown, placed⟩ := first.marked
    obtain ⟨further, grownMore, placedMore⟩ := second.marked
    refine ⟨more ++ further, by rw [grownMore, grown, List.append_assoc], ?_⟩
    refine List.forall_mem_append.mpr ⟨fun marked member => ?_, placedMore⟩
    obtain ⟨below, here⟩ := placed marked member
    exact ⟨Nat.lt_of_lt_of_le below second.scopes, here⟩

/-- One more record, in a scope that is there. -/
theorem mark (index : Index) {marked : Marked} (below : marked.scope < index.scopes.length)
    (here : marked.location.file = file)
    : Enlarged file index (index.mark marked) :=
  ⟨rfl, Nat.le_refl _, [marked], rfl, by simpa using ⟨below, here⟩⟩

/-- So is a record with an objection. -/
theorem markOther (index : Index) (below : scope < index.scopes.length) (home what : String)
    (attributes : List Attribute) (name : String) (line : Nat)
    : Enlarged file index (index.markOther file home scope what attributes name line) := by
  unfold Index.markOther
  split
  · exact mark index below rfl
  · exact refl index

/-- A member of a block adds one record at most. -/
theorem addMember (index : Index) (below : scope < index.scopes.length) (home : String)
    (block : ImplBlock) (member : Member)
    : Enlarged file index (index.addMember file home scope block member) := by
  cases member with
  | other attributes => exact refl index
  | function attributes signature =>
      unfold Index.addMember
      dsimp only
      split
      · exact mark index below rfl
      · exact refl index

/-- The functions of a block are marked in its scope, by induction on the members. -/
theorem addMembers (index : Index) (below : scope < index.scopes.length) (home : String)
    (block : ImplBlock) (members : List Member)
    : Enlarged file index (members.foldl (Index.addMember file home scope block) index) := by
  induction members generalizing index with
  | nil => exact refl index
  | cons member rest ih =>
      have first : Enlarged file index _ := addMember index below home block member
      exact first.trans (ih _ (Nat.lt_of_lt_of_le below first.scopes))

end Enlarged

mutual

/-- What an item marks stands in the scope of the item or in one that the item opens, by the cases of
the item; a module opens a scope and adds its body in it.
-/
theorem enlarged_addItem (file : FilePath) (home : String) {scope : Nat} {index : Index}
    (below : scope < index.scopes.length) (item : Item)
    : Enlarged file index (addItem file home scope index item) := by
  unfold addItem
  split
  · exact .refl index
  · cases item with
    | imports attributes exported rooted tree =>
        cases exported with
        | true => exact .ofSame rfl (Nat.le_refl _) rfl
        | false => exact .refl index
    | type attributes kind name line =>
        have declared : Enlarged file index (index.declare home name) :=
          .ofSame rfl (Nat.le_refl _) rfl
        exact declared.trans (.markOther (index.declare home name) below ..)
    | trait attributes name line members =>
        have declared : Enlarged file index (index.declare home name) :=
          .ofSame rfl (Nat.le_refl _) rfl
        exact declared.trans (.markOther (index.declare home name) below ..)
    | function attributes signature => exact .markOther index below ..
    | submodule attributes name body =>
        have opened : Enlarged file index
            ((index.registerModule (Segments.within home name)).openScope
              (Segments.within home name) body) :=
          .ofSame rfl (by simp [openScope, registerModule]) rfl
        exact opened.trans (enlarged_addItems file _ (by simp [openScope]) body)
    | fileModule attributes name => exact .ofSame rfl (Nat.le_refl _) rfl
    | implementation attributes block => exact .addMembers index below home block block.members
    | other attributes => exact .refl index

/-- Items enlarge the index one after the other, in one induction with the bodies of submodules. -/
theorem enlarged_addItems (file : FilePath) (home : String) {scope : Nat} {index : Index}
    (below : scope < index.scopes.length) (items : List Item)
    : Enlarged file index (addItems file home scope index items) := by
  cases items with
  | nil =>
      unfold addItems
      exact .refl index
  | cons item rest =>
      unfold addItems
      have first := enlarged_addItem file home below item
      exact first.trans (enlarged_addItems file home (Nat.lt_of_lt_of_le below first.scopes) rest)

end

-----------------------------------------------------------------------------------------
-- One index behind another
-----------------------------------------------------------------------------------------

/-- An index with what another one holds behind it. -/
def append (base added : Index) : Index := {
  marker := base.marker
  scopes := base.scopes ++ added.scopes
  declared := base.declared ++ added.declared
  modules := base.modules ++ added.modules
  reexports := base.reexports ++ added.reexports
  marked := base.marked ++ added.marked.map (Marked.behind base.scopes.length)
  files := base.files ++ added.files
}

/-- Registering a module behind an index is registering it and putting it behind. -/
theorem append_registerModule (base added : Index) (home : String)
    : (base.append added).registerModule home = base.append (added.registerModule home) := by
  simp [append, registerModule]

/-- The same for a declaration. -/
theorem append_declare (base added : Index) (home name : String)
    : (base.append added).declare home name = base.append (added.declare home name) := by
  simp [append, declare]

/-- The same for exports. -/
theorem append_reexport (base added : Index) (home : String) (imports : List Import)
    : (base.append added).reexport home imports = base.append (added.reexport home imports) := by
  simp [append, reexport]

/-- The same for a scope, which is opened behind the others. -/
theorem append_openScope (base added : Index) (home : String) (items : List Item)
    : (base.append added).openScope home items = base.append (added.openScope home items) := by
  simp [append, openScope]

/-- The same for a record, whose scope moves behind the others. -/
theorem append_mark (base added : Index) {marked other : Marked}
    (moved : other = marked.behind base.scopes.length)
    : (base.append added).mark other = base.append (added.mark marked) := by
  simp [append, mark, moved]

section

variable {base added : Index} (same : added.marker = base.marker) (file : FilePath)
  (home : String) (scope : Nat)

include same

/-- The same for a record with an objection. -/
theorem append_markOther (what : String) (attributes : List Attribute) (name : String) (line : Nat)
    : (base.append added).markOther file home (base.scopes.length + scope) what attributes name line
      = base.append (added.markOther file home scope what attributes name line) := by
  have marker : (base.append added).marker = added.marker := same.symm
  unfold markOther
  rw [marker]
  split
  · exact append_mark base added rfl
  · rfl

/-- The same for a member of a block. -/
theorem append_addMember (block : ImplBlock) (member : Member)
    : (base.append added).addMember file home (base.scopes.length + scope) block member
      = base.append (added.addMember file home scope block member) := by
  have marker : (base.append added).marker = added.marker := same.symm
  cases member with
  | other attributes => rfl
  | function attributes signature =>
      unfold addMember
      rw [marker]
      dsimp only
      split
      · exact append_mark base added rfl
      · rfl

end

/-- The functions of a block, by induction on the members. -/
theorem append_addMembers {base added : Index} (same : added.marker = base.marker)
    (file : FilePath) (home : String) {scope : Nat} (below : scope < added.scopes.length)
    (block : ImplBlock) (members : List Member)
    : members.foldl (addMember file home (base.scopes.length + scope) block) (base.append added)
      = base.append (members.foldl (addMember file home scope block) added) := by
  induction members generalizing added with
  | nil => rfl
  | cons member rest ih =>
      have first : Enlarged file added _ := Enlarged.addMember added below home block member
      rw [List.foldl_cons, List.foldl_cons, append_addMember same]
      exact ih (first.marker.trans same) (Nat.lt_of_lt_of_le below first.scopes)

mutual

/-- An item is added behind another index as it is alone, by the cases of the item: the marker is the
same, and scopes are counted from the other index's end.
-/
theorem append_addItem {base added : Index} (same : added.marker = base.marker) (file : FilePath)
    (home : String) {scope : Nat} (below : scope < added.scopes.length) (item : Item)
    : addItem file home (base.scopes.length + scope) (base.append added) item
      = base.append (addItem file home scope added item) := by
  unfold addItem
  split
  · rfl
  · cases item with
    | imports attributes exported rooted tree =>
        cases exported with
        | true => exact append_reexport base added home _
        | false => rfl
    | type attributes kind name line =>
        dsimp only
        rw [append_declare]
        have declaring : (added.declare home name).marker = base.marker := same
        exact append_markOther declaring ..
    | trait attributes name line members =>
        dsimp only
        rw [append_declare]
        have declaring : (added.declare home name).marker = base.marker := same
        exact append_markOther declaring ..
    | function attributes signature => exact append_markOther same ..
    | submodule attributes name body =>
        let opened := added.registerModule (Segments.within home name)
        have number : ((base.append added).registerModule (Segments.within home name)).scopes.length
            = base.scopes.length + opened.scopes.length :=
          List.length_append
        dsimp only
        rw [number, append_registerModule, append_openScope]
        have opening : (opened.openScope (Segments.within home name) body).marker = base.marker := same
        exact append_addItems opening file _ (by simp [openScope]) body
    | fileModule attributes name => exact append_registerModule base added _
    | implementation attributes block =>
        exact append_addMembers same file home below block block.members
    | other attributes => rfl

/-- The same for items, in one induction with the bodies of submodules, whose scopes all move by the
same number.
-/
theorem append_addItems {base added : Index} (same : added.marker = base.marker) (file : FilePath)
    (home : String) {scope : Nat} (below : scope < added.scopes.length) (items : List Item)
    : addItems file home (base.scopes.length + scope) (base.append added) items
      = base.append (addItems file home scope added items) := by
  cases items with
  | nil =>
      unfold addItems
      rfl
  | cons item rest =>
      unfold addItems
      have first := enlarged_addItem file home below item
      rw [append_addItem same file home below item]
      exact append_addItems (first.marker.trans same) file home (Nat.lt_of_lt_of_le below first.scopes) rest

end

-----------------------------------------------------------------------------------------
-- Files one behind the other
-----------------------------------------------------------------------------------------

/-- What the items of a file add to an index with the marker. -/
def ofFile (marker : String) (file : FilePath) (home : String) (items : List Item) : Index :=
  addParsed { marker } file home items

/-- A file adds to an index what it adds to an empty one. -/
theorem addParsed_eq_append (index : Index) (file : FilePath) (home : String) (items : List Item)
    : index.addParsed file home items = index.append (ofFile index.marker file home items) := by
  let empty : Index := { marker := index.marker }
  have alone : index.append empty = index := by simp [append, empty]
  have number : (index.registerModule home).scopes.length
      = index.scopes.length + (empty.registerModule home).scopes.length := rfl
  have opening : ((empty.registerModule home).openScope home items).marker = index.marker := rfl
  have below
      : (empty.registerModule home).scopes.length
        < ((empty.registerModule home).openScope home items).scopes.length := by
    simp [openScope]
  have added := append_addItems opening file home below items
  rw [← append_openScope, ← append_registerModule, alone] at added
  unfold addParsed
  dsimp only
  rw [number, added, ofFile, addParsed]
  simp [append, empty]

/-- The marked declarations were found in scopes of the index. -/
def WellScoped (index : Index) : Prop :=
  ∀ marked ∈ index.marked, marked.scope < index.scopes.length

/-- The marked declarations and the scopes they were found in, without the numbers of the scopes. -/
def placed (index : Index) : List (Marked × Option Scope) :=
  index.marked.map fun marked => (marked.atScope 0, index.scopes[marked.scope]?)

/-- What a file marks stands in that file, and in scopes of its own. -/
theorem ofFile_marked (marker : String) (file : FilePath) (home : String) (items : List Item)
    : ∀ marked ∈ (ofFile marker file home items).marked,
        marked.scope < (ofFile marker file home items).scopes.length
        ∧ marked.location.file = file := by
  let opened : Index := (({ marker } : Index).registerModule home).openScope home items
  have below : 0 < opened.scopes.length := by simp [opened, openScope]
  obtain ⟨more, marked, placed⟩ := (enlarged_addItems file home below items).marked
  intro declaration member
  have among : declaration ∈ [] ++ more := marked ▸ member
  exact placed declaration among

/-- An index behind another stays well scoped, as records move with their scopes. -/
theorem WellScoped.append {base added : Index} (first : base.WellScoped) (second : added.WellScoped)
    : (base.append added).WellScoped := by
  refine List.forall_mem_append.mpr ⟨fun marked member => ?_, fun marked member => ?_⟩
  · have below := first marked member
    simp only [Index.append, List.length_append]
    omega
  · obtain ⟨found, among, rfl⟩ := List.mem_map.mp member
    have below := second found among
    simp only [Index.append, List.length_append, Marked.behind, Marked.atScope]
    omega

/-- Declarations stay in their scopes when indexes are put behind one another. -/
theorem placed_append {base : Index} (wellScoped : base.WellScoped) (added : Index)
    : (base.append added).placed = base.placed ++ added.placed := by
  unfold placed append
  rw [List.map_append, List.map_map]
  congr 1
  · refine List.map_congr_left fun marked member => ?_
    rw [List.getElem?_append_left (wellScoped marked member)]
  · refine List.map_congr_left fun marked _ => ?_
    simp only [Function.comp_apply, Marked.behind, Marked.atScope, Prod.mk.injEq, true_and]
    rw [List.getElem?_append_right (Nat.le_add_right _ _), Nat.add_sub_cancel_left]

/-- What a source file adds to an index with the marker: nothing where it cannot be read. -/
def ofSource (marker : String) (source : SourceFile) : Index :=
  match Item.ofText? source.content with
  | some items => ofFile marker source.path source.home items
  | none => { marker }

/-- A file by the characters of its content. -/
theorem ofSource_ofList (marker : String) (path : FilePath) (home : String) (chars : List Char)
    : ofSource marker ⟨path, home, String.ofList chars⟩
      = (Item.ofChars? chars).elim { marker } (ofFile marker path home) := by
  unfold ofSource
  rw [Item.ofText?_ofList]
  cases Item.ofChars? chars <;> rfl

/-- A source file that adds anything can be read. -/
theorem isSome_of_scopes_ofSource {marker : String} {source : SourceFile}
    (opened : (ofSource marker source).scopes ≠ [])
    : (Item.ofText? source.content).isSome = true := by
  unfold ofSource at opened
  split at opened
  · rename_i items read
    rw [read]
    rfl
  · simp at opened

/-- Source files that can all be read are added one behind the other, by induction on them. -/
theorem takeEach_eq_foldl (index : Index) {sources : List SourceFile}
    (readable : ∀ source ∈ sources, (Item.ofText? source.content).isSome = true)
    : (index.takeEach sources).result = .ok ()
      ∧ (index.takeEach sources).state
        = (sources.map (ofSource index.marker)).foldl append index := by
  induction sources generalizing index with
  | nil => exact ⟨rfl, rfl⟩
  | cons source rest ih =>
      obtain ⟨items, read⟩ := Option.isSome_iff_exists.mp (readable source List.mem_cons_self)
      have added : index.add source = .ok (index.append (ofSource index.marker source)) := by
        simp [add, read, addParsed_eq_append, ofSource]
      obtain ⟨result, state⟩ := ih (index.append (ofSource index.marker source))
        fun later member => readable later (List.mem_cons_of_mem source member)
      simp only [takeEach, take, added, Reply.andThen, Reply.telling, Reply.done]
      exact ⟨result, state⟩

/-- The index of one file is well scoped, because every record is made in a scope that has been opened.
-/
theorem wellScoped_ofSource (marker : String) (source : SourceFile)
    : (ofSource marker source).WellScoped := by
  unfold ofSource
  split
  · exact fun marked member => (ofFile_marked marker _ _ _ marked member).1
  · simp [WellScoped]

/-- What stands in an index of several ones, by induction on them. -/
theorem placed_foldl_append {base : Index} {added : List Index} (wellScoped : base.WellScoped)
    (others : ∀ index ∈ added, index.WellScoped)
    : (added.foldl append base).placed = base.placed ++ added.flatMap placed
      ∧ (added.foldl append base).WellScoped := by
  induction added generalizing base with
  | nil => simpa using wellScoped
  | cons first rest ih =>
      obtain ⟨first, rest⟩ := List.forall_mem_cons.mp others
      obtain ⟨placed, wellScoped⟩ := ih (wellScoped.append first) rest
      rw [List.foldl_cons, placed, placed_append ‹_›, List.append_assoc, List.flatMap_cons]
      exact ⟨rfl, wellScoped⟩

/-- The index of source files, added in order to an empty one. -/
def ofSources (marker : String) (sources : List SourceFile) : Index :=
  (({ marker } : Index).takeEach sources).state

/-- The index of several files is made of their own indexes, one behind the other. -/
theorem ofSources_eq_foldl {marker : String} {sources : List SourceFile}
    (readable : ∀ source ∈ sources, (Item.ofText? source.content).isSome = true)
    : ofSources marker sources = (sources.map (ofSource marker)).foldl append { marker } :=
  (takeEach_eq_foldl _ readable).2

/-- So are its records with their scopes. -/
theorem placed_ofSources {marker : String} {sources : List SourceFile}
    (readable : ∀ source ∈ sources, (Item.ofText? source.content).isSome = true)
    : (ofSources marker sources).placed
        = (sources.flatMap fun source => (ofSource marker source).placed)
      ∧ (ofSources marker sources).WellScoped := by
  have start : ({ marker } : Index).WellScoped := by simp [WellScoped]
  have others : ∀ index ∈ sources.map (ofSource marker), index.WellScoped :=
    List.forall_mem_map.mpr fun source _ => wellScoped_ofSource marker source
  obtain ⟨placed, wellScoped⟩ := placed_foldl_append start others
  rw [ofSources_eq_foldl readable]
  exact ⟨by simpa [List.flatMap_map, Index.placed] using placed, wellScoped⟩

/-- A declaration of one index is also one of another, up to the number of its scope. -/
structure Corresponds (first second : Index) (marked other : Marked) : Prop where
  declaration : other.atScope 0 = marked.atScope 0
  scope : second.scopes[other.scope]? = first.scopes[marked.scope]?

/-- A declaration stands in a source file, and so in every index that holds the file. Declarations with
the imports of their scopes are those of the files one by one.
-/
theorem exists_source_of_marked {marker : String} {sources : List SourceFile}
    (readable : ∀ source ∈ sources, (Item.ofText? source.content).isSome = true) {marked : Marked}
    (present : marked ∈ (ofSources marker sources).marked)
    : ∃ source ∈ sources,
        source.path = marked.location.file
        ∧ ∀ others : List SourceFile,
            (∀ source ∈ others, (Item.ofText? source.content).isSome = true) → source ∈ others
            → ∃ other ∈ (ofSources marker others).marked,
                Corresponds (ofSources marker sources) (ofSources marker others) marked other := by
  have entry : (marked.atScope 0, (ofSources marker sources).scopes[marked.scope]?)
      ∈ (ofSources marker sources).placed :=
    List.mem_map_of_mem present
  rw [(placed_ofSources readable).1] at entry
  obtain ⟨source, member, entry⟩ := List.mem_flatMap.mp entry
  refine ⟨source, member, ?_, fun others readableOthers among => ?_⟩
  · obtain ⟨found, among, same⟩ := List.mem_map.mp entry
    have located : found.location.file = source.path := by
      unfold ofSource at among
      split at among
      · exact (ofFile_marked marker _ _ _ found among).2
      · simp at among
    have alike : found.atScope 0 = marked.atScope 0 := (Prod.mk.inj same).1
    rw [← located]
    exact congrArg (·.location.file) alike
  · have there : (marked.atScope 0, (ofSources marker sources).scopes[marked.scope]?)
        ∈ (ofSources marker others).placed := by
      rw [(placed_ofSources readableOthers).1]
      exact List.mem_flatMap.mpr ⟨source, among, entry⟩
    obtain ⟨other, present, same⟩ := List.mem_map.mp there
    exact ⟨other, present, (Prod.mk.inj same).1, (Prod.mk.inj same).2⟩

end Index

end Wiring
