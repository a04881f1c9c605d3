import Wiring.Proofs.Generation.Rejections
import Wiring.Proofs.Index.Placement

/-! Which declarations of a file are recorded. Attributes can stand in front of items and of members of
traits and implementations. Outside test builds, whatever carries the marker is recorded once and in its
place, if it declares a type or is a function with a body that stands in a module or an implementation.
All others are passed over. The record has the number of the scope that was opened for the body of the
module it stands in.
-/

namespace Wiring

open Source

namespace Source

-----------------------------------------------------------------------------------------
-- Declarations
-----------------------------------------------------------------------------------------

/-- What attributes can stand in front of, and the module that it stands in. -/
inductive Declaration
  | item (home : String) (item : Item)
  | traitMember (home : String) (member : Member)
  | blockMember (home : String) (block : ImplBlock) (member : Member)

/-- The attributes that a declaration carries. -/
def Declaration.attributes : Declaration → List Attribute
  | item _ found => found.attributes
  | traitMember _ member | blockMember _ _ member => member.attributes

/-- The members that are compiled outside test builds. -/
def Member.compiled (members : List Member) : List Member :=
  members.filter fun member => !isTestOnly member.attributes

/-- Members are kept or left out one by one. -/
theorem Member.compiled_append (members others : List Member)
    : compiled (members ++ others) = compiled members ++ compiled others :=
  List.filter_append members others

mutual

/-- The declarations in an item outside test builds, in the order of the file: the item itself, and what
stands in its body.
-/
def Item.declarations (home : String) (item : Item) : List Declaration :=
  if Source.isTestOnly item.attributes then []
  else
    .item home item ::
      match item with
      | .submodule _ name body => Item.declarationsOf (Segments.within home name) body
      | .trait _ _ _ members => (Member.compiled members).map (.traitMember home)
      | .implementation _ block => (Member.compiled block.members).map (.blockMember home block)
      | _ => []

/-- The declarations of several items, in order. -/
def Item.declarationsOf (home : String) (items : List Item) : List Declaration :=
  match items with
  | [] => []
  | item :: rest => item.declarations home ++ Item.declarationsOf home rest

end

/-- What attributes keep outside test builds is looked at. -/
theorem Item.not_isTestOnly {item : Item} (compiled : Source.isTestOnly item.attributes = false)
    : item.isTestOnly = false := by
  cases item with
  | other attributes => rfl
  | _ => exact compiled

/-- Those of the declarations that carry the marker. -/
def Declaration.carrying (marker : String) (declarations : List Declaration) : List Declaration :=
  declarations.filter fun declaration => carries marker declaration.attributes

/-- Whether a declaration of this kind is recorded if it carries the marker: one of a type or a trait, or a
function with a body that stands in a module or in an implementation.
-/
def Declaration.isRead : Declaration → Bool
  | item _ (.type ..) | item _ (.trait ..) | item _ (.function ..)
  | blockMember _ _ (.function ..) => true
  | item .. | traitMember .. | blockMember .. => false

/-- Whether a declaration has the form of a constructor. -/
def Declaration.isConstructor : Declaration → Bool
  | blockMember _ block (.function _ signature) =>
      (signature.objection? block.ofTrait (block.owner?.map TypePath.spelled)).isNone
  | _ => false

end Source

-----------------------------------------------------------------------------------------
-- What is recorded of them
-----------------------------------------------------------------------------------------

/-- A marked declaration that is no function of an implementation. -/
def Marked.ofOther (file : FilePath) (home what name : String) (line : Nat) : Marked where
  location := ⟨file, line⟩
  home := home
  scope := 0
  owner := none
  ownerIsGeneric := false
  name := name
  objection := some (.notAFunction what)
  parameters := []

/-- A marked function of an implementation. -/
def Marked.ofFunction (file : FilePath) (home : String) (block : ImplBlock) (signature : Signature)
    : Marked where
  location := ⟨file, signature.line⟩
  home := home
  scope := 0
  owner := block.owner?.map TypePath.spelled
  ownerIsGeneric := block.isGeneric || block.owner?.any TypePath.hasArguments
  name := signature.name
  objection := signature.objection? block.ofTrait (block.owner?.map TypePath.spelled)
  parameters := signature.parameters.map FunctionParameter.declared

/-- What is recorded of a marked declaration, but for the number of its scope. -/
def Source.Declaration.marked? (file : FilePath) : Declaration → Option Marked
  | item home (.type _ kind name line) => some (.ofOther file home kind.text name line)
  | item home (.trait _ name line _) => some (.ofOther file home "trait" name line)
  | item home (.function _ signature) =>
      some (.ofOther file home "free function" signature.name signature.line)
  | blockMember home block (.function _ signature) => some (.ofFunction file home block signature)
  | item .. | traitMember .. | blockMember .. => none

namespace Source.Declaration

variable {file : FilePath} {declaration : Declaration} {marked : Marked}

/-- A declaration is recorded as something if it is one of those that are looked at. -/
theorem isSome_marked? (file : FilePath) (declaration : Declaration)
    : (declaration.marked? file).isSome = declaration.isRead := by
  unfold marked? isRead
  split <;> rfl

/-- Of what is read, one declaration is recorded for each, by induction on the declarations. -/
theorem forall₂_filterMap_marked? (file : FilePath) (declarations : List Declaration)
    : List.Forall₂ (fun declaration marked => declaration.marked? file = some marked)
        (declarations.filter isRead) (declarations.filterMap (marked? file)) := by
  induction declarations with
  | nil => exact .nil
  | cons declaration rest ih =>
      have read := isSome_marked? file declaration
      cases recorded : declaration.marked? file with
      | none =>
          rw [recorded] at read
          rw [List.filter_cons_of_neg (by simp [← read]), List.filterMap_cons_none recorded]
          exact ih
      | some marked =>
          rw [recorded] at read
          rw [List.filter_cons_of_pos read.symm, List.filterMap_cons_some recorded]
          exact .cons recorded ih

/-- Only constructors are recorded without an objection. -/
theorem objection_of_marked? (recorded : declaration.marked? file = some marked)
    (other : declaration.isConstructor = false)
    : ∃ objection, marked.objection = some objection := by
  unfold marked? at recorded
  split at recorded
  · obtain rfl := Option.some.inj recorded
    exact ⟨_, rfl⟩
  · obtain rfl := Option.some.inj recorded
    exact ⟨_, rfl⟩
  · obtain rfl := Option.some.inj recorded
    exact ⟨_, rfl⟩
  · obtain rfl := Option.some.inj recorded
    have objected := Option.isNone_eq_false_iff.mp other
    exact Option.isSome_iff_exists.mp objected
  all_goals contradiction

end Source.Declaration

-----------------------------------------------------------------------------------------
-- Declarations and the bodies they stand in
-----------------------------------------------------------------------------------------

namespace Source

/-- A declaration in a file, and all items that are written directly in the body of the module that it
stands in.
-/
structure Site where
  file : FilePath
  body : List Item
  declaration : Declaration

mutual

/-- The declarations in an item of a body outside test builds, in the order of the file. What stands in a
module inside the body stands in the body of that module.
-/
def Item.sites (file : FilePath) (home : String) (body : List Item) (item : Item) : List Site :=
  if Source.isTestOnly item.attributes then []
  else
    ⟨file, body, .item home item⟩ ::
      match item with
      | .submodule _ name inner => Item.sitesOf file (Segments.within home name) inner inner
      | .trait _ _ _ members =>
          (Member.compiled members).map fun member => ⟨file, body, .traitMember home member⟩
      | .implementation _ block =>
          (Member.compiled block.members).map fun member => ⟨file, body, .blockMember home block member⟩
      | _ => []

/-- The sites of several items, in order. -/
def Item.sitesOf (file : FilePath) (home : String) (body items : List Item) : List Site :=
  match items with
  | [] => []
  | item :: rest => item.sites file home body ++ Item.sitesOf file home body rest

end

/-- The file of a site and the declaration there. -/
def Site.located (site : Site) : FilePath × Declaration :=
  (site.file, site.declaration)

mutual

/-- The sites in an item are those of its declarations. -/
theorem Item.located_sites (file : FilePath) (home : String) (body : List Item) (item : Item)
    : (item.sites file home body).map Site.located = (item.declarations home).map (Prod.mk file) := by
  unfold Item.sites Item.declarations
  split
  · rfl
  · rw [List.map_cons, List.map_cons]
    congr 1
    cases item with
    | submodule attributes name inner => exact Item.located_sitesOf file _ inner inner
    | trait attributes name line members => simp [Site.located]
    | implementation attributes block => simp [Site.located]
    | _ => rfl

/-- Without their bodies, sites are declarations, in one induction with the bodies of submodules. -/
theorem Item.located_sitesOf (file : FilePath) (home : String) (body items : List Item)
    : (Item.sitesOf file home body items).map Site.located
      = (Item.declarationsOf home items).map (Prod.mk file) := by
  cases items with
  | nil =>
      unfold Item.sitesOf Item.declarationsOf
      rfl
  | cons item rest =>
      unfold Item.sitesOf Item.declarationsOf
      rw [List.map_append, List.map_append, Item.located_sites, Item.located_sitesOf]

end

/-- Whether the declaration carries the marker and is of a kind that is read. -/
def Site.isRecorded (marker : String) (site : Site) : Bool :=
  carries marker site.declaration.attributes && site.declaration.isRead

end Source

namespace Index

-----------------------------------------------------------------------------------------
-- What is recorded of a file
-----------------------------------------------------------------------------------------

/-- The marked declaration is the one at the site, and its number leads to the scope of the body. -/
structure Lodged (index : Index) (site : Site) (marked : Marked) : Prop where
  declaration : site.declaration.marked? site.file = some (marked.atScope 0)
  scope : index.scopes[marked.scope]? = some (Scope.ofItems marked.home site.body)

/-- The later index holds all scopes and marked declarations of the earlier one under their numbers, and
then those of the sites that are recorded, each with the scope of its body.
-/
structure Lodges (before after : Index) (sites : List Site) : Prop where
  marker : after.marker = before.marker
  scopes : before.scopes <+: after.scopes
  marked
    : ∃ added,
        after.marked = before.marked ++ added
          ∧ List.Forall₂ after.Lodged (sites.filter (Site.isRecorded before.marker)) added

namespace Lodges

variable {before middle after : Index} {sites others : List Site}

/-- A scope that has been opened stays at its number, since scopes are only added behind those that are
there.
-/
theorem scope_kept (lodges : Lodges before after sites) {number : Nat} {scope : Scope}
    (opened : before.scopes[number]? = some scope)
    : after.scopes[number]? = some scope := by
  obtain ⟨more, grown⟩ := lodges.scopes
  have below := (List.getElem?_eq_some_iff.mp opened).1
  rw [← grown, List.getElem?_append_left below, opened]

/-- Lodging composes. Scopes of the first part are a prefix of those of the second, so a record of the
first part still finds its own scope at its number.
-/
theorem trans (first : Lodges before middle sites) (second : Lodges middle after others)
    : Lodges before after (sites ++ others) where
  marker := second.marker.trans first.marker
  scopes := first.scopes.trans second.scopes
  marked := by
    obtain ⟨added, grown, each⟩ := first.marked
    obtain ⟨more, grownMore, eachMore⟩ := second.marked
    rw [first.marker] at eachMore
    refine ⟨added ++ more, by rw [grownMore, grown, List.append_assoc], ?_⟩
    rw [List.filter_append]
    refine List.rel_append (each.imp fun site marked lodged => ?_) eachMore
    exact ⟨lodged.declaration, second.scope_kept lodged.scope⟩

/-- Nothing is marked of what is not recorded. -/
theorem ofPassed (marker : after.marker = before.marker) (scopes : before.scopes <+: after.scopes)
    (marked : after.marked = before.marked)
    (passed : ∀ site ∈ sites, site.isRecorded before.marker = false)
    : Lodges before after sites := by
  refine ⟨marker, scopes, [], by rw [marked, List.append_nil], ?_⟩
  rw [List.filter_eq_nil_iff.mpr fun site member => by simp [passed site member]]
  exact .nil

/-- Nothing is lodged by doing nothing. -/
theorem refl (index : Index) : Lodges index index [] :=
  ofPassed rfl (List.prefix_refl _) rfl (by simp)

section

variable {index : Index} {site : Site}

/-- A site without the marker is passed over. -/
theorem ofUnmarked (plain : carries index.marker site.declaration.attributes = false)
    : Lodges index index [site] :=
  ofPassed rfl (List.prefix_refl _) rfl (by simp [Site.isRecorded, plain])

/-- A marked site is lodged by its record, in the scope of its body. -/
theorem mark {marked : Marked} (carried : carries index.marker site.declaration.attributes = true)
    (declaration : site.declaration.marked? site.file = some (marked.atScope 0))
    (opened : index.scopes[marked.scope]? = some (Scope.ofItems marked.home site.body))
    : Lodges index (index.mark marked) [site] := by
  have read : site.declaration.isRead = true := by
    rw [← Declaration.isSome_marked? site.file, declaration]
    rfl
  refine ⟨rfl, List.prefix_refl _, [marked], rfl, ?_⟩
  rw [List.filter_cons_of_pos (by simp [Site.isRecorded, carried, read])]
  exact .cons ⟨declaration, opened⟩ .nil

end

section

variable {index : Index} {file : FilePath} {home : String} {scope : Nat} {body : List Item}

/-- A declaration of another kind is lodged with an objection, if it carries the marker. -/
theorem markOther {declaration : Declaration} (what : String) {attributes : List Attribute}
    (name : String) (line : Nat) (opened : index.scopes[scope]? = some (Scope.ofItems home body))
    (same : declaration.attributes = attributes)
    (recorded : declaration.marked? file = some (.ofOther file home what name line))
    : Lodges index (index.markOther file home scope what attributes name line)
        [⟨file, body, declaration⟩] := by
  subst same
  unfold Index.markOther
  split
  · rename_i carried
    exact mark carried recorded opened
  · rename_i plain
    exact ofUnmarked (Bool.eq_false_iff.mpr plain)

/-- A member of a block is lodged unless it is left out of this build, by whether it is a function,
left out of this build, and marked.
-/
theorem addMember (block : ImplBlock) (member : Member)
    (opened : index.scopes[scope]? = some (Scope.ofItems home body))
    : Lodges index (index.addMember file home scope block member)
        ((Member.compiled [member]).map fun member => ⟨file, body, .blockMember home block member⟩) := by
  cases member with
  | other attributes =>
      refine ofPassed rfl (List.prefix_refl _) rfl fun site among => ?_
      obtain ⟨member, compiled, rfl⟩ := List.mem_map.mp among
      obtain rfl := List.mem_singleton.mp (List.mem_of_mem_filter compiled)
      simp [Site.isRecorded, Declaration.isRead]
  | function attributes signature =>
      unfold Index.addMember isMarkedFunction
      dsimp only
      cases testOnly : Source.isTestOnly attributes with
      | true =>
          have dropped : Member.compiled [.function attributes signature] = [] := by
            simp [Member.compiled, Member.attributes, testOnly]
          rw [dropped, if_neg (by simp)]
          exact refl index
      | false =>
          have kept : Member.compiled [.function attributes signature]
              = [.function attributes signature] := by
            simp [Member.compiled, Member.attributes, testOnly]
          rw [kept]
          split
          · rename_i carried
            have carried : carries index.marker attributes = true := by simpa using carried
            exact mark carried rfl opened
          · rename_i plain
            have plain : carries index.marker attributes = false := by simpa using plain
            exact ofUnmarked plain

/-- The functions of a block stand in the body that the block stands in, by induction on the members. -/
theorem addMembers (block : ImplBlock) (members : List Member)
    (opened : index.scopes[scope]? = some (Scope.ofItems home body))
    : Lodges index (members.foldl (Index.addMember file home scope block) index)
        ((Member.compiled members).map fun member => ⟨file, body, .blockMember home block member⟩) := by
  induction members generalizing index with
  | nil => exact refl index
  | cons member rest ih =>
      have first : Lodges index (index.addMember file home scope block member) _ :=
        addMember block member opened
      rw [← List.singleton_append, Member.compiled_append, List.map_append]
      exact first.trans (ih (first.scope_kept opened))

end

end Lodges

/-- The scope that is opened for a body has the next number. -/
theorem scope_of_openScope (index : Index) (home : String) (body : List Item)
    : (index.openScope home body).scopes[index.scopes.length]? = some (Scope.ofItems home body) := by
  simp [openScope]

/-- An item of test builds is left out, and one that declares nothing brings in nothing anyway. -/
theorem addItem_testOnly {file : FilePath} {home : String} {scope : Nat} {index : Index} {item : Item}
    (testOnly : Source.isTestOnly item.attributes = true)
    : addItem file home scope index item = index := by
  unfold addItem
  cases item with
  | other attributes => split <;> rfl
  | _ => exact if_pos testOnly

mutual

/-- What an item marks finds the scope of the body that the item stands in, or of one inside the item,
by the cases of the item; for a module it is the induction over its body, in a scope of its own.
-/
theorem lodges_addItem (file : FilePath) {home : String} {scope : Nat} {index : Index}
    {body : List Item} (opened : index.scopes[scope]? = some (Scope.ofItems home body)) (item : Item)
    : Lodges index (addItem file home scope index item) (item.sites file home body) := by
  unfold Item.sites
  split
  · rename_i testOnly
    rw [addItem_testOnly testOnly]
    exact .refl index
  · rename_i compiled
    have looked : item.isTestOnly = false := Item.not_isTestOnly (by simpa using compiled)
    have passed (declaration : Declaration) (other : declaration.isRead = false)
        : ∀ site ∈ [Site.mk file body declaration], site.isRecorded index.marker = false := by
      simp [Site.isRecorded, other]
    unfold addItem
    rw [if_neg (by simp [looked])]
    cases item with
    | imports attributes exported rooted tree =>
        cases exported with
        | true => exact .ofPassed rfl (List.prefix_refl _) rfl (passed _ rfl)
        | false => exact .ofPassed rfl (List.prefix_refl _) rfl (passed _ rfl)
    | type attributes kind name line =>
        have declared : Lodges index (index.declare home name) [] :=
          .ofPassed rfl (List.prefix_refl _) rfl (by simp)
        exact declared.trans (.markOther kind.text name line opened rfl rfl)
    | trait attributes name line members =>
        have declared : Lodges index (index.declare home name) [] :=
          .ofPassed rfl (List.prefix_refl _) rfl (by simp)
        have itself : Lodges (index.declare home name) _
            [⟨file, body, .item home (.trait attributes name line members)⟩] :=
          .markOther "trait" name line opened rfl rfl
        refine (declared.trans itself).trans (.ofPassed rfl (List.prefix_refl _) rfl fun site among => ?_)
        obtain ⟨member, _, rfl⟩ := List.mem_map.mp among
        simp [Site.isRecorded, Declaration.isRead]
    | function attributes signature =>
        exact .markOther "free function" signature.name signature.line opened rfl rfl
    | submodule attributes name inner =>
        have entered
            : Lodges index
                ((index.registerModule (Segments.within home name)).openScope
                  (Segments.within home name) inner)
                [⟨file, body, .item home (.submodule attributes name inner)⟩] :=
          .ofPassed rfl (List.prefix_append _ _) rfl (passed _ rfl)
        exact entered.trans (lodges_addItems file (scope_of_openScope _ _ inner) inner)
    | fileModule attributes name => exact .ofPassed rfl (List.prefix_refl _) rfl (passed _ rfl)
    | implementation attributes block =>
        have itself : Lodges index index [⟨file, body, .item home (.implementation attributes block)⟩] :=
          .ofPassed rfl (List.prefix_refl _) rfl (passed _ rfl)
        exact itself.trans (.addMembers block block.members opened)
    | other attributes => exact .ofPassed rfl (List.prefix_refl _) rfl (passed _ rfl)

/-- Items are lodged one after the other: the scope of their body stays open while submodules open
theirs behind it.
-/
theorem lodges_addItems (file : FilePath) {home : String} {scope : Nat} {index : Index}
    {body : List Item} (opened : index.scopes[scope]? = some (Scope.ofItems home body))
    (items : List Item)
    : Lodges index (addItems file home scope index items) (Item.sitesOf file home body items) := by
  cases items with
  | nil =>
      unfold addItems Item.sitesOf
      exact .refl index
  | cons item rest =>
      unfold addItems Item.sitesOf
      have first := lodges_addItem file opened item
      exact first.trans (lodges_addItems file (first.scope_kept opened) rest)

end

/-- A file is lodged as the body of its module, whose scope is opened first. -/
theorem lodges_addParsed (index : Index) (file : FilePath) (home : String) (items : List Item)
    : Lodges index (index.addParsed file home items) (Item.sitesOf file home items items) := by
  let named := index.registerModule home
  let opened := named.openScope home items
  have entered : Lodges index opened [] := .ofPassed rfl (List.prefix_append _ _) rfl (by simp)
  have added := lodges_addItems file (scope_of_openScope named home items) items
  have filed
      : Lodges (addItems file home named.scopes.length opened items) (index.addParsed file home items) [] :=
    .ofPassed rfl (List.prefix_refl _) rfl (by simp)
  simpa only [List.nil_append, List.append_nil] using (entered.trans added).trans filed

/-- The later index has recorded those of the declarations that carry the marker, in their order. -/
structure Records (file : FilePath) (before after : Index) (declarations : List Declaration) : Prop where
  marker : after.marker = before.marker
  marked
    : ∃ added,
        after.marked = before.marked ++ added
          ∧ added.map (Marked.atScope · 0)
            = (Declaration.carrying before.marker declarations).filterMap (Declaration.marked? file)

/-- What is recorded of the sites of a file is recorded of its declarations. Sites that are not read
have no record, so the filter by kind makes no difference.
-/
theorem Lodges.records {before after : Index} {sites : List Site} {file : FilePath}
    {declarations : List Declaration} (lodges : Lodges before after sites)
    (located : sites.map Site.located = declarations.map (Prod.mk file))
    : Records file before after declarations := by
  obtain ⟨added, grown, each⟩ := lodges.marked
  refine ⟨lodges.marker, added, grown, ?_⟩
  let marked? (entry : FilePath × Declaration) : Option Marked := entry.2.marked? entry.1
  let carried? (entry : FilePath × Declaration) : Option Marked :=
    if carries before.marker entry.2.attributes then marked? entry else none
  have unread (site : Site)
      : (if site.isRecorded before.marker then marked? site.located else none)
        = carried? site.located := by
    have read := Declaration.isSome_marked? site.file site.declaration
    cases found : site.declaration.marked? site.file with
    | none => simp [carried?, marked?, Site.located, found]
    | some marked =>
        rw [found] at read
        simp [carried?, marked?, Site.located, found, Site.isRecorded, ← read]
  calc
    added.map (Marked.atScope · 0)
    _ = (sites.filter (Site.isRecorded before.marker)).filterMap (marked? ·.located) :=
      eq_filterMap_of_forall₂
        (List.forall₂_map_right_iff.mpr (each.imp fun _ _ lodged => lodged.declaration))
    _ = (sites.map Site.located).filterMap carried? := by
      rw [List.filterMap_filter, List.filterMap_map]
      exact congrArg (sites.filterMap ·) (funext unread)
    _ = (Declaration.carrying before.marker declarations).filterMap (Declaration.marked? file) := by
      rw [located, List.filterMap_map, Declaration.carrying, List.filterMap_filter]
      rfl

/-- What has been recorded of a file are its declarations, since what is lodged is recorded. -/
theorem records_addParsed (index : Index) (file : FilePath) (home : String) (items : List Item)
    : Records file index (index.addParsed file home items) (Item.declarationsOf home items) :=
  (lodges_addParsed index file home items).records (Item.located_sitesOf file home items items)

/-- A file that can be parsed has those of its declarations recorded that carry the marker outside test
builds and are of a kind that is read: one record for each, in the order of the file. What is recorded
is rejected in its place unless it has the form of a constructor. Of other kinds nothing is recorded.
Adding an item records its declarations, and a record of one that is no constructor carries an
objection.
-/
theorem add_records (index : Index) {source : SourceFile} {items : List Item}
    (read : Item.ofText? source.content = some items)
    : let carrying := Declaration.carrying index.marker (Item.declarationsOf source.home items)
      ∃ after added,
        index.add source = .ok after
          ∧ after.marked = index.marked ++ added
          ∧ List.Forall₂
              (fun declaration marked =>
                declaration.marked? source.path = some (marked.atScope 0)
                  ∧ (declaration.isConstructor = false
                    → ∃ explanation,
                        marked.fault?
                          = some ⟨.notAConstructor, marked.location, marked.text, explanation⟩))
              (carrying.filter Declaration.isRead) added := by
  intro carrying
  obtain ⟨added, grown, same⟩ := (records_addParsed index source.path source.home items).marked
  refine ⟨index.addParsed source.path source.home items, added, by rw [add, read], grown, ?_⟩
  have each := Declaration.forall₂_filterMap_marked? source.path carrying
  rw [← same, List.forall₂_map_right_iff] at each
  refine each.imp fun declaration marked recorded => ⟨recorded, fun other => ?_⟩
  obtain ⟨objection, objected⟩ := Declaration.objection_of_marked? recorded other
  exact ⟨objection.message, Marked.fault?_eq_some_iff.mpr (.notAConstructor objected)⟩

/-- A structure, a function of a trait and a constructor, all of which are marked. -/
private def builderFile : SourceFile :=
  ⟨⟨"src/lib.rs"⟩, "crate",
    "#[inject]pub struct S;pub trait Build{#[inject]fn build()->u8;}impl S{#[inject]pub fn new()->Self{S}}"⟩

/-- What is recorded of them, which leaves the function of the trait out. -/
private def builderMarked : List Marked :=
  [.ofOther ⟨"src/lib.rs"⟩ "crate" "struct" "S" 1,
    {
      location := ⟨⟨"src/lib.rs"⟩, 1⟩
      home := "crate"
      scope := 0
      owner := some (.single "S")
      ownerIsGeneric := false
      name := "new"
      objection := none
      parameters := []
    }]

/-- A type, a function of a trait and a constructor carry the marker. The type is rejected, the
function is passed over, and the constructor is recorded as it is. The records are counted by the
general law and evaluated once.
-/
theorem add_records_builder
    : ∃ items after,
        Item.ofText? builderFile.content = some items
          ∧ (Declaration.carrying "inject" (Item.declarationsOf "crate" items)).length = 3
          ∧ ((Declaration.carrying "inject" (Item.declarationsOf "crate" items)).filter
              Declaration.isRead).length = after.marked.length
          ∧ ({ marker := "inject" } : Index).add builderFile = .ok after
          ∧ after.marked = builderMarked := by
  have known
      : (Item.ofText? builderFile.content).map (fun items =>
          ((Declaration.carrying "inject" (Item.declarationsOf "crate" items)).length,
            (({ marker := "inject" } : Index).addParsed builderFile.path "crate" items).marked))
        = some (3, builderMarked) := by
    rw [builderFile, Item.ofText?_ofList]
    decide +kernel
  obtain ⟨items, read, both⟩ := Option.map_eq_some_iff.mp known
  obtain ⟨three, marked⟩ := Prod.mk.inj both
  obtain ⟨after, added, taken, grown, each⟩ := add_records { marker := "inject" } read
  have same : after.marked = builderMarked := by
    rw [add, read] at taken
    rw [← Except.ok.inj taken]
    exact marked
  have all : after.marked = added := grown
  refine ⟨items, after, read, three, ?_, taken, same⟩
  rw [all]
  exact each.length_eq

/-- A constant, a static variable, a module, an implementation, a constant in it and a function of a trait
carry the marker, and nothing is recorded of them.
-/
theorem add_recordsNothing
    : let source : SourceFile :=
        ⟨⟨"src/lib.rs"⟩, "crate",
          "#[inject]const A:u8=1;#[inject]static B:u8=1;#[inject]mod m{}#[inject]impl S{#[inject]const C:u8=1;}trait T{#[inject]fn t();}"⟩
      (Item.ofText? source.content).map (fun items =>
          (Declaration.carrying "inject" (Item.declarationsOf source.home items)).length) = some 6
        ∧ (({ marker := "inject" } : Index).add source).toOption.map Index.marked = some [] := by
  intro source
  have known
      : (Item.ofText? source.content).map (fun items =>
          ((Declaration.carrying "inject" (Item.declarationsOf source.home items)).length,
            (({ marker := "inject" } : Index).addParsed source.path source.home items).marked))
        = some (6, []) := by
    rw [Item.ofText?_ofList]
    decide +kernel
  obtain ⟨items, read, both⟩ := Option.map_eq_some_iff.mp known
  obtain ⟨six, nothing⟩ := Prod.mk.inj both
  rw [add, read]
  exact ⟨congrArg some six, congrArg some nothing⟩

end Index

end Wiring
