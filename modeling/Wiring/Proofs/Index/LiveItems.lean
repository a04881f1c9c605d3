import Wiring.Proofs.Index.Placement

/-! Which items of a crate are looked at: those that no test-only item of their own file stands around.
What an index declares and has marked comes from these and from all of these. A file is looked at
whatever is said of its module in another file.
-/

namespace Wiring

open Source

namespace Source.Item

-----------------------------------------------------------------------------------------
-- Items outside test builds
-----------------------------------------------------------------------------------------

/-- The item stands in the body of a module, or in that of a module inside, which is the `inner` one;
neither the item nor what stands around it is compiled in test builds alone.
-/
inductive Stands : String → List Item → String → Item → Prop
  | here {home items item} (member : item ∈ items) (compiled : item.isTestOnly = false)
    : Stands home items home item
  | inside {home items attributes name body inner item}
    (member : .submodule attributes name body ∈ items)
    (compiled : (submodule attributes name body).isTestOnly = false)
    (below : Stands (Segments.within home name) body inner item)
    : Stands home items inner item

/-- Nothing stands among no items. -/
theorem not_stands_nil {home inner : String} {item : Item}
    : ¬ Stands home [] inner item := by
  rintro (⟨member, _⟩ | ⟨member, _, _⟩) <;> exact List.not_mem_nil member

/-- What stands in a body stands in its first item or in the others. -/
theorem stands_cons {home inner : String} {first item : Item} {rest : List Item}
    : Stands home (first :: rest) inner item
      ↔ Stands home [first] inner item ∨ Stands home rest inner item := by
  constructor
  · rintro (⟨member, compiled⟩ | ⟨member, compiled, below⟩)
    · rcases List.mem_cons.mp member with rfl | member
      · exact .inl (.here List.mem_cons_self compiled)
      · exact .inr (.here member compiled)
    · rcases List.mem_cons.mp member with rfl | member
      · exact .inl (.inside List.mem_cons_self compiled below)
      · exact .inr (.inside member compiled below)
  · rintro ((⟨member, compiled⟩ | ⟨member, compiled, below⟩) | ⟨member, compiled⟩ | ⟨member, compiled, below⟩)
    · exact .here (by simp [List.mem_singleton.mp member]) compiled
    · exact .inside (by simp [List.mem_singleton.mp member]) compiled below
    · exact .here (List.mem_cons_of_mem first member) compiled
    · exact .inside (List.mem_cons_of_mem first member) compiled below

/-- Nor behind a gate for test builds. -/
theorem not_stands_of_isTestOnly {home inner : String} {first item : Item}
    (testOnly : first.isTestOnly = true)
    : ¬ Stands home [first] inner item := by
  rintro (⟨member, compiled⟩ | ⟨member, compiled, _⟩)
  all_goals
    obtain rfl := List.mem_singleton.mp member
    exact absurd (testOnly.symm.trans compiled) (by simp)

/-- In a module stand the module itself and what stands in its body. -/
theorem stands_submodule {home inner name : String} {attributes : List Attribute}
    {body : List Item} {item : Item}
    (compiled : (submodule attributes name body).isTestOnly = false)
    : Stands home [submodule attributes name body] inner item
      ↔ (inner = home ∧ item = submodule attributes name body)
        ∨ Stands (Segments.within home name) body inner item := by
  constructor
  · rintro (⟨member, _⟩ | ⟨member, _, below⟩)
    · exact .inl ⟨rfl, List.mem_singleton.mp member⟩
    · obtain ⟨_, rfl, rfl⟩ := Item.submodule.inj (List.mem_singleton.mp member)
      exact .inr below
  · rintro (⟨rfl, rfl⟩ | below)
    · exact .here List.mem_cons_self compiled
    · exact .inside List.mem_cons_self compiled below

/-- In an item that is no module with a body stands the item alone. -/
theorem stands_singleton {home inner : String} {first item : Item}
    (compiled : first.isTestOnly = false)
    (plain : ∀ attributes name body, first ≠ submodule attributes name body)
    : Stands home [first] inner item ↔ inner = home ∧ item = first := by
  constructor
  · rintro (⟨member, _⟩ | ⟨member, _, _⟩)
    · exact ⟨rfl, List.mem_singleton.mp member⟩
    · exact absurd (List.mem_singleton.mp member).symm (plain _ _ _)
  · rintro ⟨rfl, rfl⟩
    exact .here List.mem_cons_self compiled

/-- The name of the type that an item declares. -/
def declaredName? : Item → Option String
  | type _ _ name _ | trait _ name _ _ => some name
  | _ => none

/-- Something in the item carries the marker outside test builds: the item itself, or a function of the
implementation that it is.
-/
inductive Marks (marker : String) : Item → String → Nat → Prop
  | type {attributes kind name line} (carried : carries marker attributes = true)
    : Marks marker (type attributes kind name line) name line
  | trait {attributes name line members} (carried : carries marker attributes = true)
    : Marks marker (trait attributes name line members) name line
  | function {attributes signature} (carried : carries marker attributes = true)
    : Marks marker (function attributes signature) signature.name signature.line
  | member {outer block attributes signature}
    (among : .function attributes signature ∈ block.members)
    (carried : carries marker attributes = true) (compiled : Source.isTestOnly attributes = false)
    : Marks marker (implementation outer block) signature.name signature.line

/-- A type of the qualified name is declared in the body of a module, outside test builds. -/
def Declares (home : String) (items : List Item) (qualified : String) : Prop :=
  ∃ inner item name,
    Stands home items inner item
    ∧ item.declaredName? = some name
    ∧ qualified = Segments.within inner name

/-- Something that carries the marker stands in the body of a module, outside test builds. -/
def HasMarked (marker home : String) (items : List Item) (inner name : String) (line : Nat) : Prop :=
  ∃ item, Stands home items inner item ∧ item.Marks marker name line

section

variable {marker home inner name qualified : String} {line : Nat} {first : Item} {rest : List Item}

/-- Items declare what the first one does and what the rest does, as each item stands by itself. -/
theorem declares_cons
    : Declares home (first :: rest) qualified
      ↔ Declares home [first] qualified ∨ Declares home rest qualified := by
  constructor
  · rintro ⟨inner, item, name, stands, declared⟩
    rcases stands_cons.mp stands with stands | stands
    · exact .inl ⟨inner, item, name, stands, declared⟩
    · exact .inr ⟨inner, item, name, stands, declared⟩
  · rintro (⟨inner, item, name, stands, declared⟩ | ⟨inner, item, name, stands, declared⟩)
    · exact ⟨inner, item, name, stands_cons.mpr (.inl stands), declared⟩
    · exact ⟨inner, item, name, stands_cons.mpr (.inr stands), declared⟩

/-- The same for marked declarations. -/
theorem hasMarked_cons
    : HasMarked marker home (first :: rest) inner name line
      ↔ HasMarked marker home [first] inner name line ∨ HasMarked marker home rest inner name line := by
  constructor
  · rintro ⟨item, stands, marks⟩
    rcases stands_cons.mp stands with stands | stands
    · exact .inl ⟨item, stands, marks⟩
    · exact .inr ⟨item, stands, marks⟩
  · rintro (⟨item, stands, marks⟩ | ⟨item, stands, marks⟩)
    · exact ⟨item, stands_cons.mpr (.inl stands), marks⟩
    · exact ⟨item, stands_cons.mpr (.inr stands), marks⟩

/-- An item that is no submodule declares its own name at most. -/
theorem declares_singleton (compiled : first.isTestOnly = false)
    (plain : ∀ attributes name body, first ≠ submodule attributes name body)
    : Declares home [first] qualified
      ↔ ∃ name, first.declaredName? = some name ∧ qualified = Segments.within home name := by
  constructor
  · rintro ⟨inner, item, name, stands, declared⟩
    obtain ⟨rfl, rfl⟩ := (stands_singleton compiled plain).mp stands
    exact ⟨name, declared⟩
  · rintro ⟨name, declared⟩
    exact ⟨home, first, name, (stands_singleton compiled plain).mpr ⟨rfl, rfl⟩, declared⟩

/-- It marks its own declarations. -/
theorem hasMarked_singleton (compiled : first.isTestOnly = false)
    (plain : ∀ attributes name body, first ≠ submodule attributes name body)
    : HasMarked marker home [first] inner name line
      ↔ inner = home ∧ first.Marks marker name line := by
  constructor
  · rintro ⟨item, stands, marks⟩
    obtain ⟨rfl, rfl⟩ := (stands_singleton compiled plain).mp stands
    exact ⟨rfl, marks⟩
  · rintro ⟨rfl, marks⟩
    exact ⟨first, (stands_singleton compiled plain).mpr ⟨rfl, rfl⟩, marks⟩

variable {attributes : List Attribute} {body : List Item}

/-- A module declares what its body does. -/
theorem declares_submodule (compiled : (submodule attributes name body).isTestOnly = false)
    : Declares home [submodule attributes name body] qualified
      ↔ Declares (Segments.within home name) body qualified := by
  constructor
  · rintro ⟨inner, item, declaredName, stands, declared, same⟩
    rcases (stands_submodule compiled).mp stands with ⟨rfl, rfl⟩ | stands
    · contradiction
    · exact ⟨inner, item, declaredName, stands, declared, same⟩
  · rintro ⟨inner, item, declaredName, stands, declared⟩
    exact ⟨inner, item, declaredName, (stands_submodule compiled).mpr (.inr stands), declared⟩

/-- A submodule that is compiled has marked what its body has, one module further down. -/
theorem hasMarked_submodule {found : String}
    (compiled : (submodule attributes name body).isTestOnly = false)
    : HasMarked marker home [submodule attributes name body] inner found line
      ↔ HasMarked marker (Segments.within home name) body inner found line := by
  constructor
  · rintro ⟨item, stands, marks⟩
    rcases (stands_submodule compiled).mp stands with ⟨rfl, rfl⟩ | stands
    · contradiction
    · exact ⟨item, stands, marks⟩
  · rintro ⟨item, stands, marks⟩
    exact ⟨item, (stands_submodule compiled).mpr (.inr stands), marks⟩

end

end Source.Item

namespace Index

-----------------------------------------------------------------------------------------
-- Scanning
-----------------------------------------------------------------------------------------

/-- The index has a marked declaration of the name, in the module and at the line. -/
def HasMarked (index : Index) (home name : String) (location : Location) : Prop :=
  ∃ marked ∈ index.marked, marked.home = home ∧ marked.name = name ∧ marked.location = location

/-- The later index has the types declared and the marked declarations that the earlier one does not. -/
structure Scans (file : FilePath) (before after : Index) (declares : String → Prop)
    (marks : String → String → Nat → Prop) : Prop where
  marker : after.marker = before.marker
  declared : ∀ name, name ∈ after.declared ↔ name ∈ before.declared ∨ declares name
  marked
    : ∀ home name location,
        after.HasMarked home name location
        ↔ before.HasMarked home name location
          ∨ location.file = file ∧ marks home name location.line

namespace Scans

variable {file : FilePath} {before middle after : Index} {declares others : String → Prop}
  {marks moreMarks : String → String → Nat → Prop}

/-- Scans compose: what either part declares or marks has been added. -/
theorem trans (first : Scans file before middle declares marks)
    (second : Scans file middle after others moreMarks)
    : Scans file before after (fun name => declares name ∨ others name)
        (fun home name line => marks home name line ∨ moreMarks home name line) where
  marker := second.marker.trans first.marker
  declared name := by rw [second.declared, first.declared, or_assoc]
  marked home name location := by rw [second.marked, first.marked, or_assoc, ← and_or_left]

/-- What a scan has found may be said otherwise. -/
theorem congr (scans : Scans file before after declares marks)
    (sameTypes : ∀ name, others name ↔ declares name)
    (sameMarks : ∀ home name line, moreMarks home name line ↔ marks home name line)
    : Scans file before after others moreMarks where
  marker := scans.marker
  declared name := by rw [scans.declared, sameTypes]
  marked home name location := by rw [scans.marked, sameMarks]

/-- A change that leaves declarations as they are. -/
theorem ofSame (marker : after.marker = before.marker) (declared : after.declared = before.declared)
    (marked : after.marked = before.marked)
    : Scans file before after (fun _ => False) (fun _ _ _ => False) where
  marker := marker
  declared name := by simp [declared]
  marked home name location := by simp [HasMarked, marked]

/-- Declaring adds one name. -/
theorem declare (index : Index) (home name : String)
    : Scans file index (index.declare home name) (· = Segments.within home name)
        (fun _ _ _ => False) where
  marker := rfl
  declared name := by simp [Index.declare]
  marked home name location := by simp [HasMarked, Index.declare]

/-- Marking adds one declaration. -/
theorem mark (index : Index) {marked : Marked} (here : marked.location.file = file)
    : Scans file index (index.mark marked) (fun _ => False)
        (fun home name line =>
          home = marked.home ∧ name = marked.name ∧ line = marked.location.line) where
  marker := rfl
  declared name := by simp [Index.mark]
  marked home name location := by
    obtain ⟨⟨_, _⟩, _, _, _, _, _, _, _⟩ := marked
    obtain ⟨path, line⟩ := location
    obtain rfl := here
    simp only [HasMarked, Index.mark, List.mem_append, List.mem_singleton, or_and_right, exists_or,
      exists_eq_left, Location.mk.injEq]
    grind

/-- What is no function of an implementation is marked when it carries the marker. -/
theorem markOther (index : Index) (home : String) (scope : Nat) (what : String)
    (attributes : List Attribute) (name : String) (line : Nat)
    : Scans file index (index.markOther file home scope what attributes name line) (fun _ => False)
        (fun inner found at_ =>
          carries index.marker attributes = true ∧ inner = home ∧ found = name ∧ at_ = line) := by
  unfold Index.markOther
  split
  · rename_i carried
    refine Scans.congr (mark index rfl) (fun _ => Iff.rfl) fun _ _ _ => ?_
    simp [carried]
  · rename_i plain
    exact (ofSame rfl rfl rfl).congr (fun _ => Iff.rfl) fun _ _ _ => by simp [plain]

/-- A member of a block adds a declaration if it is a function that is marked and compiled, by whether
it is a function and carries the marker.
-/
theorem addMember (index : Index) (home : String) (scope : Nat) (block : ImplBlock)
    (member : Member)
    : Scans file index (index.addMember file home scope block member) (fun _ => False)
        (fun inner found line =>
          inner = home
          ∧ ∃ attributes signature,
              member = .function attributes signature
              ∧ carries index.marker attributes = true
              ∧ Source.isTestOnly attributes = false
              ∧ found = signature.name
              ∧ line = signature.line) := by
  cases member with
  | other attributes =>
      exact (ofSame rfl rfl rfl).congr (fun _ => Iff.rfl) fun _ _ _ => by simp
  | function attributes signature =>
      unfold Index.addMember isMarkedFunction
      dsimp only
      split
      · rename_i carried
        simp only [Bool.and_eq_true, Bool.not_eq_true'] at carried
        refine Scans.congr (mark index rfl) (fun _ => Iff.rfl) fun inner found line => ?_
        constructor
        · rintro ⟨rfl, _, _, same, _, _, rfl, rfl⟩
          obtain ⟨rfl, rfl⟩ := Member.function.inj same
          exact ⟨rfl, rfl, rfl⟩
        · rintro ⟨rfl, rfl, rfl⟩
          exact ⟨rfl, attributes, signature, rfl, carried.1, carried.2, rfl, rfl⟩
      · rename_i plain
        simp only [Bool.and_eq_true, Bool.not_eq_true', not_and] at plain
        refine (ofSame rfl rfl rfl).congr (fun _ => Iff.rfl) fun inner found line => ?_
        rw [iff_false]
        rintro ⟨_, _, _, same, carried, compiled, _⟩
        obtain ⟨rfl, rfl⟩ := Member.function.inj same
        exact plain carried compiled

/-- The marked functions of a block, by induction on its members. -/
theorem addMembers (index : Index) (home : String) (scope : Nat) (block : ImplBlock)
    (members : List Member)
    : Scans file index (members.foldl (Index.addMember file home scope block) index)
        (fun _ => False)
        (fun inner found line =>
          inner = home
          ∧ ∃ attributes signature,
              .function attributes signature ∈ members
              ∧ carries index.marker attributes = true
              ∧ Source.isTestOnly attributes = false
              ∧ found = signature.name
              ∧ line = signature.line) := by
  induction members generalizing index with
  | nil => exact (ofSame rfl rfl rfl).congr (fun _ => Iff.rfl) fun _ _ _ => by simp
  | cons member rest ih =>
      have first : Scans file index _ _ _ := addMember index home scope block member
      refine (first.trans (ih _)).congr (fun _ => by simp) fun inner found line => ?_
      rw [first.marker]
      simp only [List.mem_cons]
      grind

variable {index : Index} {home : String} {item : Item}

/-- An item that neither declares nor marks anything. -/
theorem ofUnnamed (compiled : item.isTestOnly = false)
    (plain : ∀ attributes name body, item ≠ .submodule attributes name body)
    (unnamed : item.declaredName? = none) (unmarked : ∀ name line, ¬ item.Marks index.marker name line)
    (marker : after.marker = index.marker) (declared : after.declared = index.declared)
    (marked : after.marked = index.marked)
    : Scans file index after (Item.Declares home [item]) (Item.HasMarked index.marker home [item]) := by
  refine (ofSame marker declared marked).congr (fun name => ?_) fun inner name line => ?_
  · simp [Item.declares_singleton compiled plain, unnamed]
  · simp [Item.hasMarked_singleton compiled plain, unmarked]

/-- An item that declares a type, and marks it when it carries the marker. -/
theorem ofType (compiled : item.isTestOnly = false)
    (plain : ∀ attributes name body, item ≠ .submodule attributes name body) {name : String}
    (named : item.declaredName? = some name) {attributes : List Attribute} {line : Nat}
    (marks
      : ∀ found there,
          item.Marks index.marker found there
          ↔ carries index.marker attributes = true ∧ found = name ∧ there = line)
    (scope : Nat) (what : String)
    : Scans file index ((index.declare home name).markOther file home scope what attributes name line)
        (Item.Declares home [item]) (Item.HasMarked index.marker home [item]) := by
  have declares : Scans file index _ _ _ := declare index home name
  have scans := declares.trans
    (markOther (index.declare home name) home scope what attributes name line)
  refine scans.congr (fun qualified => ?_) fun inner found there => ?_
  · rw [Item.declares_singleton compiled plain, named]
    simp
  · rw [Item.hasMarked_singleton compiled plain, marks, false_or]
    exact and_left_comm

end Scans

mutual

/-- An item brings in what stands in it outside test builds, by the cases of the item; for a module it
is the induction over its body.
-/
theorem scans_addItem (file : FilePath) (home : String) (scope : Nat) (index : Index) (item : Item)
    : Scans file index (addItem file home scope index item) (Item.Declares home [item])
        (Item.HasMarked index.marker home [item]) := by
  unfold addItem
  split
  · rename_i testOnly
    refine (Scans.ofSame rfl rfl rfl).congr (fun name => ?_) fun inner name line => ?_
    · simp [Item.Declares, Item.not_stands_of_isTestOnly testOnly]
    · simp [Item.HasMarked, Item.not_stands_of_isTestOnly testOnly]
  · rename_i compiled
    have compiled : item.isTestOnly = false := by simpa using compiled
    cases item with
    | submodule attributes name body =>
        let opened := (index.registerModule (Segments.within home name)).openScope
          (Segments.within home name) body
        have first : Scans file index opened (fun _ => False) (fun _ _ _ => False) :=
          .ofSame rfl rfl rfl
        refine (first.trans (scans_addItems file _ _ opened body)).congr (fun found => ?_)
          fun inner found line => ?_
        · rw [Item.declares_submodule compiled, false_or]
        · rw [Item.hasMarked_submodule compiled, false_or]
          rfl
    | imports attributes exported rooted tree =>
        cases exported with
        | true => exact .ofUnnamed compiled (by simp) rfl (by rintro _ _ ⟨⟩) rfl rfl rfl
        | false => exact .ofUnnamed compiled (by simp) rfl (by rintro _ _ ⟨⟩) rfl rfl rfl
    | type attributes kind name line =>
        refine .ofType compiled (by simp) rfl (fun found there => ?_) scope kind.text
        constructor
        · intro marks
          cases marks with
          | type carried => exact ⟨carried, rfl, rfl⟩
        · rintro ⟨carried, rfl, rfl⟩
          exact .type carried
    | trait attributes name line members =>
        refine .ofType compiled (by simp) rfl (fun found there => ?_) scope "trait"
        constructor
        · intro marks
          cases marks with
          | trait carried => exact ⟨carried, rfl, rfl⟩
        · rintro ⟨carried, rfl, rfl⟩
          exact .trait carried
    | function attributes signature =>
        refine (Scans.markOther index home scope "free function" attributes signature.name
          signature.line).congr (fun name => ?_) fun inner found there => ?_
        · simp [Item.declares_singleton compiled, Item.declaredName?]
        · rw [Item.hasMarked_singleton compiled (by simp), and_left_comm]
          refine and_congr_right fun _ => ⟨?_, ?_⟩
          · intro marks
            cases marks with
            | function carried => exact ⟨carried, rfl, rfl⟩
          · rintro ⟨carried, rfl, rfl⟩
            exact .function carried
    | fileModule attributes name =>
        exact .ofUnnamed compiled (by simp) rfl (by rintro _ _ ⟨⟩) rfl rfl rfl
    | implementation attributes block =>
        refine (Scans.addMembers index home scope block block.members).congr (fun name => ?_)
          fun inner found there => ?_
        · simp [Item.declares_singleton compiled, Item.declaredName?]
        · rw [Item.hasMarked_singleton compiled (by simp)]
          refine and_congr_right fun _ => ⟨?_, ?_⟩
          · intro marks
            cases marks with
            | member among carried outside => exact ⟨_, _, among, carried, outside, rfl, rfl⟩
          · rintro ⟨_, _, among, carried, outside, rfl, rfl⟩
            exact .member among carried outside
    | other attributes => exact .ofUnnamed compiled (by simp) rfl (by rintro _ _ ⟨⟩) rfl rfl rfl

/-- Items are scanned one after the other, in one induction with their bodies. -/
theorem scans_addItems (file : FilePath) (home : String) (scope : Nat) (index : Index)
    (items : List Item)
    : Scans file index (addItems file home scope index items) (Item.Declares home items)
        (Item.HasMarked index.marker home items) := by
  cases items with
  | nil =>
      unfold addItems
      refine (Scans.ofSame rfl rfl rfl).congr (fun name => ?_) fun inner name line => ?_
      · simp [Item.Declares, Item.not_stands_nil]
      · simp [Item.HasMarked, Item.not_stands_nil]
  | cons item rest =>
      unfold addItems
      have first := scans_addItem file home scope index item
      have later := scans_addItems file home scope (addItem file home scope index item) rest
      rw [first.marker] at later
      exact (first.trans later).congr (fun _ => Item.declares_cons) fun _ _ _ => Item.hasMarked_cons

end

/-- A file is scanned as the body of its module. -/
theorem scans_addParsed (index : Index) (file : FilePath) (home : String) (items : List Item)
    : Scans file index (index.addParsed file home items) (Item.Declares home items)
        (Item.HasMarked index.marker home items) := by
  let opened := (index.registerModule home).openScope home items
  have items := scans_addItems file home (index.registerModule home).scopes.length opened items
  exact ⟨items.marker, items.declared, items.marked⟩

end Index

-----------------------------------------------------------------------------------------
-- Source files
-----------------------------------------------------------------------------------------

/-- The file declares a type of the qualified name outside test builds. -/
def SourceFile.Declares (source : SourceFile) (qualified : String) : Prop :=
  ∃ items, Item.ofText? source.content = some items ∧ Item.Declares source.home items qualified

/-- Something in the file carries the marker outside test builds, at the location. -/
def SourceFile.HasMarked (marker : String) (source : SourceFile) (inner name : String)
    (location : Location) : Prop :=
  location.file = source.path
  ∧ ∃ items,
      Item.ofText? source.content = some items
      ∧ Item.HasMarked marker source.home items inner name location.line

namespace Index

/-- An index has what stands in its files outside test builds, by induction on the files. -/
theorem takeEach_scans (index : Index) {sources : List SourceFile}
    (readable : ∀ source ∈ sources, (Item.ofText? source.content).isSome = true)
    : (∀ name,
        name ∈ (index.takeEach sources).state.declared
        ↔ name ∈ index.declared ∨ ∃ source ∈ sources, source.Declares name)
      ∧ ∀ home name location,
          (index.takeEach sources).state.HasMarked home name location
          ↔ index.HasMarked home name location
            ∨ ∃ source ∈ sources, source.HasMarked index.marker home name location := by
  induction sources generalizing index with
  | nil => simp [takeEach, Reply.done]
  | cons source rest ih =>
      obtain ⟨items, read⟩ := Option.isSome_iff_exists.mp (readable source List.mem_cons_self)
      have state : (index.takeEach (source :: rest)).state
          = ((index.addParsed source.path source.home items).takeEach rest).state := by
        simp [takeEach, take, add, read, Reply.andThen, Reply.telling, Reply.done]
      have first := scans_addParsed index source.path source.home items
      obtain ⟨declared, marked⟩ := ih (index.addParsed source.path source.home items)
        fun later member => readable later (List.mem_cons_of_mem source member)
      rw [state]
      constructor
      · intro name
        rw [declared, first.declared, or_assoc]
        simp [SourceFile.Declares, read]
      · intro home name location
        rw [marked, first.marked, first.marker, or_assoc]
        simp [SourceFile.HasMarked, read]

end Index

end Wiring
