import Wiring.Proofs.Emission.SpelledNames
import Wiring.Proofs.Index.Origins
import Wiring.Proofs.Source.Grammar.NamedItems
import Wiring.SourceTree

/-! Indexes of files in modules of proper names: all modules, declarations and imports in them consist of
identifiers, and so do the types that they answer for what is marked.
-/

namespace Wiring

open Source Segments

/-- All segments of an import are identifiers. -/
def Import.Named : Import → Prop
  | .named _ path | .glob path => path.Named

/-- So are those of a parameter's type, where it is supported. -/
def ParameterShape.Named : ParameterShape → Prop
  | .shared path => path.Named
  | .unsupported _ => True

/-- Whether the name and the paths of a marked declaration consist of identifiers. -/
structure Marked.Named (marked : Marked) : Prop where
  name : Identifier.isToken marked.name = true
  owner : ∀ path ∈ marked.owner, path.Named
  parameters : ∀ parameter ∈ marked.parameters, parameter.shape.Named

/-- The scope is that of a module whose name is a path, and its imports are named. -/
structure Scope.Named (scope : Scope) : Prop where
  home : IsPath scope.home
  imports : ∀ found ∈ scope.imports, found.Named

/-- The same for an export. -/
structure Reexport.Named (reexport : Reexport) : Prop where
  home : IsPath reexport.home
  reexported : reexport.reexported.Named

/-- Whether all that an index qualifies types with consists of identifiers. -/
structure Index.Named (index : Index) : Prop where
  scopes : ∀ scope ∈ index.scopes, scope.Named
  declared : ∀ name ∈ index.declared, IsPath name
  reexports : ∀ reexport ∈ index.reexports, reexport.Named
  marked : ∀ marked ∈ index.marked, marked.Named

/-- A kind of modules. With a module, those inside it are of the kind, too. -/
structure HomeKind where
  Holds : String → Prop
  below
    : ∀ {home name : String},
        Holds home → Identifier.isToken name = true → Holds (within home name)

/-- Modules whose names are paths. -/
def HomeKind.paths : HomeKind :=
  ⟨IsPath, isPath_within⟩

/-- Whether an index is of modules of the kind, and consists of identifiers otherwise. -/
structure Index.NamedIn (kind : HomeKind) (index : Index) : Prop where
  scopes
    : ∀ scope ∈ index.scopes, kind.Holds scope.home ∧ ∀ found ∈ scope.imports, found.Named
  declared : ∀ name ∈ index.declared, kind.Holds name
  reexports
    : ∀ reexport ∈ index.reexports, kind.Holds reexport.home ∧ reexport.reexported.Named
  marked : ∀ marked ∈ index.marked, marked.Named

/-- An index is named if it is named in modules of that kind. -/
theorem Index.named_iff {index : Index}
    : index.Named ↔ index.NamedIn .paths where
  mp named :=
    ⟨fun scope member => ⟨(named.scopes scope member).home, (named.scopes scope member).imports⟩,
      named.declared,
      fun reexport member =>
        ⟨(named.reexports reexport member).home, (named.reexports reexport member).reexported⟩,
      named.marked⟩
  mpr named :=
    ⟨fun scope member => ⟨(named.scopes scope member).1, (named.scopes scope member).2⟩,
      named.declared,
      fun reexport member =>
        ⟨(named.reexports reexport member).1, (named.reexports reexport member).2⟩,
      named.marked⟩

-----------------------------------------------------------------------------------------
-- What an index takes up
-----------------------------------------------------------------------------------------

namespace Import

/-- A path of identifiers is named. -/
theorem named_path {rooted : Bool} {segments : List String}
    (tokens : ∀ segment ∈ segments, Identifier.isToken segment = true)
    : SpelledPath.Named ⟨rooted, segments⟩ :=
  tokens

mutual

/-- What a tree imports below identifiers consists of identifiers, by induction on the tree. -/
theorem named_ofTree (rooted : Bool) {above : List String}
    (tokens : ∀ segment ∈ above, Identifier.isToken segment = true) (tree : UseTree)
    (named : tree.Named)
    : ∀ found ∈ ofTree rooted above tree, found.Named := by
  have below {name : String} (token : Identifier.isToken name = true)
      : ∀ segment ∈ above ++ [name], Identifier.isToken segment = true :=
    List.forall_mem_append.mpr ⟨tokens, by simpa using token⟩
  have under {segments : List String} (name : String)
      (tokens : ∀ segment ∈ segments, Identifier.isToken segment = true)
      : ∀ found ∈ named? rooted segments name, found.Named := by
    unfold named?
    split
    · simp
    · simpa [Import.Named] using named_path tokens
  match tree with
  | .inside _ tree =>
      rw [ofTree]
      exact named_ofTree rooted (below named.1) tree named.2
  | .name name =>
      by_cases self : name = "self"
      · rw [self, ofTree]
        split
        · simpa [Import.Named] using named_path tokens
        · simp
      · rw [ofTree]
        · simpa [Import.Named] using named_path (below named)
        · exact self
  | .rename name newName =>
      by_cases self : name = "self"
      · rw [self, ofTree]
        exact under newName tokens
      · rw [ofTree]
        · exact under newName (below named)
        · exact self
  | .glob =>
      rw [ofTree]
      simpa [Import.Named] using named_path tokens
  | .group trees =>
      rw [ofTree]
      exact named_ofTrees rooted tokens trees named

/-- The imports of several trees are named, in one induction with what is grouped in them. -/
theorem named_ofTrees (rooted : Bool) {above : List String}
    (tokens : ∀ segment ∈ above, Identifier.isToken segment = true) (trees : List UseTree)
    (named : UseTree.AllNamed trees)
    : ∀ found ∈ ofTrees rooted above trees, found.Named := by
  match trees with
  | [] => simp [ofTrees]
  | tree :: rest =>
      unfold ofTrees
      exact List.forall_mem_append.mpr
        ⟨named_ofTree rooted tokens tree named.1, named_ofTrees rooted tokens rest named.2⟩

end

/-- The imports of an item are. -/
theorem named_ofItem {item : Item} (named : item.Named)
    : ∀ found ∈ ofItem item, found.Named := by
  unfold ofItem
  split
  · split
    · simp
    · exact named_ofTree _ (by simp) _ named
  · simp

end Import

/-- So are those of a body. -/
theorem Scope.named_imports_ofItems (home : String) {items : List Item} (named : Item.AllNamed items)
    : ∀ found ∈ (Scope.ofItems home items).imports, found.Named := by
  intro found member
  obtain ⟨item, among, inside⟩ := List.mem_flatMap.mp member
  exact Import.named_ofItem (Item.allNamed_iff.mp named item among) found inside

/-- The shape of a named type is named, since its path is taken over. -/
theorem Source.TypeExpr.Named.shape {type : TypeExpr} (named : type.Named)
    : type.shape.Named := by
  unfold TypeExpr.shape
  split
  · rename_i path found
    obtain ⟨outer, given, last⟩ := Option.bind_eq_some_iff.mp found
    exact (named outer given _ (List.mem_of_getLast? last)).arguments
  · trivial

namespace Index.NamedIn

variable {kind : HomeKind} {index : Index}

/-- An empty index has no names. -/
theorem empty (kind : HomeKind) (marker : String)
    : Index.NamedIn kind { marker } :=
  ⟨by simp, by simp, by simp, by simp⟩

/-- A declaration under an identifier keeps an index named. -/
theorem declare (named : index.NamedIn kind) {home name : String} (held : kind.Holds home)
    (token : Identifier.isToken name = true)
    : (index.declare home name).NamedIn kind :=
  { named with
    declared :=
      List.forall_mem_append.mpr ⟨named.declared, by simpa using kind.below held token⟩ }

/-- So does a marked declaration of proper names. -/
theorem mark (named : index.NamedIn kind) {marked : Marked} (proper : marked.Named)
    : (index.mark marked).NamedIn kind :=
  { named with marked := List.forall_mem_append.mpr ⟨named.marked, by simpa using proper⟩ }

/-- So does one with an objection, which has no owner and no parameters. -/
theorem markOther (named : index.NamedIn kind) (file : FilePath) (home : String) (scope : Nat)
    (what : String) (attributes : List Attribute) {name : String}
    (token : Identifier.isToken name = true) (line : Nat)
    : (index.markOther file home scope what attributes name line).NamedIn kind := by
  unfold Index.markOther
  split
  · exact named.mark ⟨token, by simp, by simp⟩
  · exact named

/-- A member of a block keeps the index named if its own names and the owner are proper. -/
theorem addMember (named : index.NamedIn kind) (file : FilePath) (home : String) (scope : Nat)
    {block : ImplBlock} (owner : ∀ path ∈ block.owner?, path.Named) {member : Member}
    (proper : member.Named)
    : (index.addMember file home scope block member).NamedIn kind := by
  cases member with
  | other attributes => exact named
  | function attributes signature =>
      unfold Index.addMember
      dsimp only
      split
      · refine named.mark ⟨proper.name, fun path found => ?_, fun parameter found => ?_⟩
        · obtain ⟨type, given, rfl⟩ := Option.map_eq_some_iff.mp found
          exact (owner type given).spelled
        · obtain ⟨declared, given, rfl⟩ := List.mem_map.mp found
          exact (proper.parameters declared given).shape
      · exact named

/-- The functions of a block are added in order, by induction on them. -/
theorem addMembers (named : index.NamedIn kind) (file : FilePath) (home : String) (scope : Nat)
    {block : ImplBlock} (owner : ∀ path ∈ block.owner?, path.Named) {members : List Member}
    (proper : ∀ member ∈ members, member.Named)
    : (members.foldl (Index.addMember file home scope block) index).NamedIn kind := by
  induction members generalizing index with
  | nil => exact named
  | cons member rest ih =>
      obtain ⟨here, there⟩ := List.forall_mem_cons.mp proper
      exact ih (named.addMember file home scope owner here) there

/-- A scope keeps it named if the imports of its body are. -/
theorem openScope (named : index.NamedIn kind) {home : String} (held : kind.Holds home)
    {items : List Item} (proper : Item.AllNamed items)
    : (index.openScope home items).NamedIn kind :=
  { named with
    scopes :=
      List.forall_mem_append.mpr
        ⟨named.scopes, by simpa using ⟨held, Scope.named_imports_ofItems home proper⟩⟩ }

/-- Modules have no part in it. -/
theorem registerModule (named : index.NamedIn kind) (home : String)
    : (index.registerModule home).NamedIn kind :=
  ⟨named.scopes, named.declared, named.reexports, named.marked⟩

/-- Named exports keep it named. -/
theorem reexport (named : index.NamedIn kind) {home : String} (held : kind.Holds home)
    {imports : List Import} (proper : ∀ found ∈ imports, found.Named)
    : (index.reexport home imports).NamedIn kind :=
  { named with
    reexports := by
      refine List.forall_mem_append.mpr ⟨named.reexports, fun reexport member => ?_⟩
      obtain ⟨found, among, rfl⟩ := List.mem_map.mp member
      exact ⟨held, proper found among⟩ }

mutual

/-- An item keeps the index named, in one induction with the bodies of submodules. A submodule is in a
module of the same kind, since its name is an identifier.
-/
theorem addItem {index : Index} (named : index.NamedIn kind) (file : FilePath) {home : String}
    (held : kind.Holds home) (scope : Nat) (item : Item) (proper : item.Named)
    : (index.addItem file home scope item).NamedIn kind := by
  unfold Index.addItem
  split
  · exact named
  · cases item with
    | imports attributes exported rooted tree =>
        cases exported with
        | true => exact named.reexport held (Import.named_ofTree rooted (by simp) tree proper)
        | false => exact named
    | type attributes kind name line =>
        exact (named.declare held proper).markOther file home scope _ attributes proper line
    | trait attributes name line members =>
        exact (named.declare held proper).markOther file home scope _ attributes proper line
    | function attributes signature =>
        exact named.markOther file home scope _ attributes proper.name signature.line
    | submodule attributes name body =>
        have inner := kind.below held proper.1
        exact ((named.registerModule _).openScope inner proper.2).addItems file inner _ body proper.2
    | fileModule attributes name => exact named.registerModule _
    | implementation attributes block =>
        exact named.addMembers file home scope proper.owner proper.members
    | other attributes => exact named

/-- So do items one after the other. -/
theorem addItems {index : Index} (named : index.NamedIn kind) (file : FilePath) {home : String}
    (held : kind.Holds home) (scope : Nat) (items : List Item) (proper : Item.AllNamed items)
    : (index.addItems file home scope items).NamedIn kind := by
  cases items with
  | nil =>
      unfold Index.addItems
      exact named
  | cons item rest =>
      unfold Index.addItems
      exact (named.addItem file held scope item proper.1).addItems file held scope rest proper.2

end

/-- Whatever text a file in a module of the kind consists of, adding it keeps to identifiers. -/
theorem add (named : index.NamedIn kind) {source : SourceFile} (held : kind.Holds source.home)
    {after : Index} (added : index.add source = .ok after)
    : after.NamedIn kind := by
  unfold Index.add at added
  split at added
  · rename_i items read
    obtain rfl := Except.ok.inj added
    have proper := Item.allNamed_of_ofText? read
    have opened := (named.registerModule source.home).openScope held proper
    have full := opened.addItems source.path held (index.registerModule source.home).scopes.length
      items proper
    exact ⟨full.scopes, full.declared, full.reexports, full.marked⟩
  · contradiction

/-- A file keeps the index named in modules of its kind, because everything that is read consists of
identifiers.
-/
theorem take (named : index.NamedIn kind) {source : SourceFile} (held : kind.Holds source.home)
    : (index.take source).state.NamedIn kind := by
  unfold Index.take
  split
  · rename_i after added
    exact named.add held added
  · exact named

end Index.NamedIn

namespace Index.Named

/-- An empty index has no names, in modules whose names are paths. -/
theorem empty (marker : String)
    : Index.Named { marker } :=
  named_iff.mpr (.empty .paths marker)

/-- A file in a module whose name is a path keeps an index named. -/
theorem take {index : Index} (named : index.Named) {source : SourceFile}
    (path : IsPath source.home)
    : (index.take source).state.Named :=
  named_iff.mpr ((named_iff.mp named).take path)

end Index.Named

-----------------------------------------------------------------------------------------
-- What an index answers
-----------------------------------------------------------------------------------------

/-- Whether the module and the name of a type consist of identifiers. -/
structure TypeName.Named (type : TypeName) : Prop where
  home : IsPath type.home
  name : Identifier.isToken type.name = true

/-- A named type is spelled in identifiers. -/
theorem TypeName.Named.isSpelled {type : TypeName} (named : type.Named)
    : Emission.IsSpelled type where
  home := by
    rw [Emission.wordsOfPath, named.home.dropLeading_eq]
    exact named.home
  name := named.name

/-- A type that is read from a path is named: its name is the last segment, and the others are its
module.
-/
theorem TypeName.named_of_parse? {text : String} {type : TypeName} (path : IsPath text)
    (read : TypeName.parse? text = some type)
    : type.Named := by
  unfold TypeName.parse? at read
  rw [path.dropLeading_eq] at read
  split at read
  · rename_i home name parts
    split at read
    · contradiction
    · obtain rfl := Option.some.inj read
      obtain ⟨home, name⟩ := path.parts parts
      exact ⟨home, name⟩
  · contradiction

/-- Whether a text is a path of identifiers, or empty and so the path of nothing. -/
def Segments.IsPathOrEmpty (text : String) : Prop :=
  text = "" ∨ IsPath text

/-- Identifiers make up a path, or nothing at all. -/
theorem Segments.isPathOrEmpty_join {segments : List String}
    (tokens : ∀ segment ∈ segments, Identifier.isToken segment = true)
    : IsPathOrEmpty (join segments) := by
  by_cases empty : segments = []
  · exact .inl (by rw [empty]; rfl)
  · exact .inr (isPath_join empty tokens)

/-- No type is read from nothing. -/
theorem TypeName.named_of_parse?_orEmpty {text : String} {type : TypeName}
    (path : IsPathOrEmpty text) (read : TypeName.parse? text = some type)
    : type.Named := by
  rcases path with rfl | path
  · contradiction
  · exact named_of_parse? path read

namespace Index

variable {index : Index}

/-- The absolute form of a named path consists of identifiers, whichever module it starts from. -/
theorem isPathOrEmpty_absolute? {home : String} (inHome : IsPath home) {path : SpelledPath}
    (named : path.Named) {text : String} (found : index.absolute? home path = some text)
    : IsPathOrEmpty text := by
  obtain rfl | ⟨outer, rest, some, inside, last, rfl⟩ := absolute?_eq_some found
  · exact isPathOrEmpty_join named
  · have tokens : ∀ segment ∈ outer, Identifier.isToken segment = true :=
      fun segment member => inHome segment (inside.subset member)
    exact .inr (isPath_join_cons (isPath_join some tokens)
      fun segment member => named segment (last.subset member))

/-- What a lookup finds is an entry. -/
theorem mem_of_lookup {α β : Type} [BEq α] [LawfulBEq α] {entries : List (α × β)} {key : α} {value : β}
    (found : entries.lookup key = some value)
    : (key, value) ∈ entries := by
  obtain ⟨before, after, rfl, _⟩ := List.lookup_eq_some_iff.mp found
  simp

/-- The path that a name is imported by is named. -/
theorem named_path? {scope : Scope} (proper : ∀ found ∈ scope.imports, found.Named) {name : String}
    {path : SpelledPath} (found : scope.path? name = some path)
    : path.Named := by
  have member := List.mem_reverse.mp (mem_of_lookup found)
  obtain ⟨imported, among, binds⟩ := List.mem_filterMap.mp member
  have named := proper imported among
  cases imported with
  | named _ inner =>
      obtain ⟨-, rfl⟩ := Prod.mk.inj (Option.some.inj binds)
      exact named
  | glob _ => contradiction

/-- What is found is one of the public imports of the module. -/
theorem exists_reexport_of_named {home name : String} {written : SpelledPath}
    (found : index.namedReexport? home name = some written)
    : ∃ reexport ∈ index.reexports,
        reexport.home = home ∧ reexport.reexported.binding? = some (name, written) := by
  have member := List.mem_reverse.mp (mem_of_lookup found)
  obtain ⟨reexport, among, binds⟩ := List.mem_filterMap.mp member
  obtain ⟨present, here⟩ := List.mem_filter.mp among
  exact ⟨reexport, present, of_decide_eq_true here, binds⟩

/-- A public import that is found stands in a module of the kind and consists of identifiers. -/
theorem NamedIn.namedReexport? {kind : HomeKind} (named : index.NamedIn kind) {home name : String}
    {path : SpelledPath} (found : index.namedReexport? home name = some path)
    : kind.Holds home ∧ path.Named := by
  obtain ⟨reexport, present, rfl, binds⟩ := exists_reexport_of_named found
  obtain ⟨held, proper⟩ := named.reexports reexport present
  refine ⟨held, ?_⟩
  cases same : reexport.reexported with
  | named _ inner =>
      rw [same] at binds proper
      obtain ⟨-, rfl⟩ := Prod.mk.inj (Option.some.inj binds)
      exact proper
  | glob _ =>
      rw [same] at binds
      contradiction

/-- Whatever is made absolute stands in a module of the kind and consists of identifiers. -/
theorem NamedIn.written {kind : HomeKind} (named : index.NamedIn kind) {scope : Scope}
    (among : scope ∈ index.scopes) {path : SpelledPath} (spelled : path.Named) {home : String}
    {written : SpelledPath} (stands : Written index scope path home written)
    : kind.Holds home ∧ written.Named := by
  obtain ⟨held, imports⟩ := named.scopes scope among
  cases stands with
  | itself => exact ⟨held, spelled⟩
  | imported found below =>
      exact ⟨held, List.forall_mem_append.mpr
        ⟨named_path? imports found, fun segment member => spelled segment (below member)⟩⟩
  | reexported found => exact named.namedReexport? found

/-- The types of the prelude are named. -/
theorem named_prelude {name : String} {type : TypeName} (found : prelude.lookup name = some type)
    : type.Named := by
  obtain ⟨-, rfl⟩ := Prod.mk.inj (List.mem_singleton.mp (mem_of_lookup found))
  exact ⟨by decide, by decide⟩

/-- The types that paths of identifiers resolve to consist of identifiers, wherever they come from. -/
theorem Named.resolve? (named : index.Named) {scope : Scope} (among : scope ∈ index.scopes)
    {owner : Option TypeName} (own : ∀ type ∈ owner, type.Named) {path : SpelledPath}
    (spelled : path.Named) {type : TypeName} (found : index.resolve? scope owner path = some type)
    : type.Named := by
  cases Origin.of_resolve? found with
  | rooted _ read => exact TypeName.named_of_parse?_orEmpty (isPathOrEmpty_join spelled) read
  | owner _ same => exact own type same
  | @declaration text declared read =>
      exact TypeName.named_of_parse? (named.declared text (by simpa [declares] using declared)) read
  | outside stands leads _ read =>
      obtain ⟨inHome, proper⟩ := (named_iff.mp named).written among spelled stands
      exact TypeName.named_of_parse?_orEmpty (isPathOrEmpty_absolute? inHome proper leads) read
  | prelude found => exact named_prelude found

/-- The type of an owner is named, as it is resolved from a named path. -/
theorem Named.ownerType? (named : index.Named) {marked : Marked} (proper : marked.Named)
    {type : TypeName} (found : index.ownerType? marked = some type)
    : type.Named := by
  obtain ⟨scope, path, opened, owned, resolved⟩ := resolve?_of_ownerType? found
  exact named.resolve? (List.mem_of_getElem? opened) (by simp) (proper.owner path owned) resolved

/-- So are the types of parameters. -/
theorem Named.parameterTypes? (named : index.Named) {marked : Marked} (proper : marked.Named)
    {types : List TypeName} (found : index.parameterTypes? marked = some types)
    : ∀ type ∈ types, type.Named := by
  obtain ⟨scope, opened, each⟩ := forall₂_of_parameterTypes? found
  intro type member
  obtain ⟨parameter, among, path, shared, resolved⟩ := exists_of_forall₂ each.flip member
  have spelled := proper.parameters parameter among
  rw [shared] at spelled
  exact named.resolve? (List.mem_of_getElem? opened)
    (fun type owned => named.ownerType? proper owned) spelled resolved

end Index

end Wiring
