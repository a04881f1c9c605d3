import Wiring.Proofs.Index.CrateInternal
import Wiring.Proofs.Index.MarkedDeclarations

/-! The scopes that declarations are found in. A scope is opened for each body of a module, and holds what
the `use` items written directly in that body import. The number of a marked declaration leads to the scope
of the body that the declaration stands in, whatever is added before and after it.
-/

namespace Wiring

open Source

-----------------------------------------------------------------------------------------
-- Imports as they are written
-----------------------------------------------------------------------------------------

namespace Source

/-- What a path of a `use` item ends in. -/
inductive UseEnding
  | name (name : String)
  | rename (name newName : String)
  | glob

/-- One path of a `use` item, groups written out: the segments above its end, and the end. -/
structure UsePath where
  above : List String
  ending : UseEnding

/-- The same path with further segments in front. -/
def UsePath.below (segments : List String) (path : UsePath) : UsePath :=
  { path with above := segments ++ path.above }

mutual

/-- The paths of a tree. A group stands for the paths in it, one behind the other. -/
def UseTree.paths : UseTree → List UsePath
  | .inside segment tree => (UseTree.paths tree).map (UsePath.below [segment])
  | .name last => [⟨[], .name last⟩]
  | .rename last newName => [⟨[], .rename last newName⟩]
  | .glob => [⟨[], .glob⟩]
  | .group trees => UseTree.pathsOf trees

/-- The paths of several trees, in order. -/
def UseTree.pathsOf : List UseTree → List UsePath
  | [] => []
  | tree :: rest => UseTree.paths tree ++ UseTree.pathsOf rest

end

/-- The path without a `self` at its end. -/
def UsePath.plain (above : List String) (name : String) : List String :=
  if name = "self" then above else above ++ [name]

/-- What a path imports: all of a module, or what it leads to, under the last of its segments or a new name.
Nothing is called `_`.
-/
def UsePath.import? (rooted : Bool) (path : UsePath) : Option Import :=
  match path.ending with
  | .name name =>
      (plain path.above name).getLast?.map fun last => .named last ⟨rooted, plain path.above name⟩
  | .rename name newName =>
      if newName = "_" then none else some (.named newName ⟨rooted, plain path.above name⟩)
  | .glob => some (.glob ⟨rooted, path.above⟩)

/-- `self` at the end stands for the path above it. -/
theorem UsePath.plain_self (above : List String)
    : plain above "self" = above :=
  if_pos rfl

/-- Any other name is one segment more. -/
theorem UsePath.plain_of_ne (above : List String) {name : String} (other : name ≠ "self")
    : plain above name = above ++ [name] :=
  if_neg other

/-- A path may be put below segments in two steps. -/
theorem UsePath.below_below (outer inner : List String) (path : UsePath)
    : (path.below inner).below outer = path.below (outer ++ inner) := by
  simp [below, List.append_assoc]

/-- What is imported below the segments by a tree, path by path. -/
def UseTree.imports (rooted : Bool) (above : List String) (paths : List UsePath) : List Import :=
  paths.filterMap fun path => (path.below above).import? rooted

/-- A tree of one path is one import at most. -/
theorem UseTree.imports_singleton (rooted : Bool) (above : List String) (ending : UseEnding)
    : UseTree.imports rooted above [⟨[], ending⟩]
      = (UsePath.import? rooted ⟨above, ending⟩).toList := by
  cases imported : UsePath.import? rooted ⟨above, ending⟩ <;>
    simp [UseTree.imports, UsePath.below, imported]

mutual

/-- A tree imports what its paths import, by induction on the tree, whose last segment may be `self`. -/
theorem ofTree_eq_imports (rooted : Bool) (above : List String) (tree : UseTree)
    : Import.ofTree rooted above tree = UseTree.imports rooted above tree.paths := by
  cases tree with
  | inside segment tree =>
      have inner := ofTree_eq_imports rooted (above ++ [segment]) tree
      rw [Import.ofTree, inner, UseTree.paths]
      simp only [UseTree.imports, List.filterMap_map, Function.comp_def, UsePath.below_below]
  | name last =>
      rw [UseTree.paths, UseTree.imports_singleton]
      by_cases itself : last = "self"
      · subst itself
        simp only [Import.ofTree, UsePath.import?, UsePath.plain_self]
        cases above.getLast? <;> rfl
      · rw [Import.ofTree]
        · simp [UsePath.import?, UsePath.plain_of_ne above itself]
        · exact itself
  | rename last newName =>
      rw [UseTree.paths, UseTree.imports_singleton]
      by_cases itself : last = "self"
      · subst itself
        simp only [Import.ofTree, Import.named?, UsePath.import?, UsePath.plain_self]
        split <;> rfl
      · rw [Import.ofTree, Import.named?]
        · simp only [UsePath.import?, UsePath.plain_of_ne above itself]
          split <;> rfl
        · exact itself
  | glob => rw [Import.ofTree, UseTree.paths, UseTree.imports_singleton]; rfl
  | group trees =>
      rw [Import.ofTree, UseTree.paths]
      exact ofTrees_eq_imports rooted above trees

/-- Trees import what their paths do, in one induction with what is grouped in them. -/
theorem ofTrees_eq_imports (rooted : Bool) (above : List String) (trees : List UseTree)
    : Import.ofTrees rooted above trees = UseTree.imports rooted above (UseTree.pathsOf trees) := by
  cases trees with
  | nil => rfl
  | cons tree rest =>
      rw [Import.ofTrees, UseTree.pathsOf, ofTree_eq_imports, ofTrees_eq_imports, UseTree.imports,
        UseTree.imports, UseTree.imports, List.filterMap_append]

end

/-- What the `use` items among the items import outside test builds, in the order in which it is written. -/
def importsWritten (items : List Item) : List Import :=
  items.flatMap fun
    | .imports attributes _ rooted tree =>
        if isTestOnly attributes then [] else UseTree.imports rooted [] tree.paths
    | _ => []

end Source

/-- The scope is that of the body of a module: for each name it has the last import of it that is written
directly in the body, and all imports of whole modules in their order.
-/
structure Scope.IsOf (scope : Scope) (home : String) (body : List Item) : Prop where
  home : scope.home = home
  names
    : ∀ name path,
        scope.path? name = some path
          ↔ ∃ earlier later,
              importsWritten body = earlier ++ .named name path :: later
                ∧ ∀ other, .named name other ∉ later
  globs : scope.globs = (importsWritten body).filterMap Import.glob?

/-- Only named imports bind a name, and they bind their own. -/
theorem Import.binding?_eq_some_iff {found : Import} {name : String} {path : SpelledPath}
    : found.binding? = some (name, path) ↔ found = .named name path := by
  cases found <;> simp [binding?]

/-- A name is not imported just if none of the bindings is one of it. -/
theorem Import.forall_not_mem_iff {imports : List Import} {name : String}
    : (∀ path, .named name path ∉ imports)
      ↔ ∀ binding ∈ imports.filterMap Import.binding?, name ≠ binding.1 := by
  constructor
  · rintro absent ⟨other, path⟩ member rfl
    obtain ⟨found, among, bound⟩ := List.mem_filterMap.mp member
    rw [binding?_eq_some_iff.mp bound] at among
    exact absent path among
  · intro others path member
    exact others (name, path) (List.mem_filterMap.mpr ⟨_, member, rfl⟩) rfl

/-- Of several imports of a name, the last one counts. Imports are looked up from the back. -/
theorem Scope.path?_eq_some_iff {scope : Scope} {name : String} {path : SpelledPath}
    : scope.path? name = some path
      ↔ ∃ earlier later,
          scope.imports = earlier ++ .named name path :: later ∧ ∀ other, .named name other ∉ later := by
  rw [Scope.path?, List.lookup_eq_some_iff]
  constructor
  · rintro ⟨behind, front, reversed, others⟩
    have bindings := congrArg List.reverse reversed
    simp only [List.reverse_reverse, List.reverse_append, List.reverse_cons, List.append_assoc,
      List.singleton_append] at bindings
    obtain ⟨earlier, rest, whole, -, last⟩ := List.filterMap_eq_append_iff.mp bindings
    obtain ⟨passed, found, later, parts, -, bound, after⟩ := List.filterMap_eq_cons_iff.mp last
    obtain rfl := Import.binding?_eq_some_iff.mp bound
    refine ⟨earlier ++ passed, later, by rw [whole, parts, List.append_assoc], ?_⟩
    refine Import.forall_not_mem_iff.mpr fun binding member => ?_
    rw [after] at member
    simpa using others binding (List.mem_reverse.mp member)
  · rintro ⟨earlier, later, whole, others⟩
    refine ⟨(later.filterMap Import.binding?).reverse, (earlier.filterMap Import.binding?).reverse, ?_, ?_⟩
    · simp [whole, Import.binding?]
    · intro binding member
      simpa using Import.forall_not_mem_iff.mp others binding (List.mem_reverse.mp member)

/-- The imports that are written in a body are those of its items. -/
theorem importsWritten_eq (body : List Item)
    : importsWritten body = body.flatMap Import.ofItem := by
  refine List.flatMap_congr fun item _ => ?_
  cases item with
  | imports attributes exported rooted tree => rw [Import.ofItem, ofTree_eq_imports]
  | _ => rfl

/-- The scope of a body is made of the imports written in it: a name stands for the last import of it,
and globs are kept in order.
-/
theorem Scope.isOf_ofItems (home : String) (body : List Item)
    : (Scope.ofItems home body).IsOf home body := by
  refine ⟨rfl, fun name path => ?_, ?_⟩
  · rw [Scope.path?_eq_some_iff, importsWritten_eq, ofItems]
  · rw [Scope.globs, importsWritten_eq, ofItems]

/-- The declarations in a source file: none where it cannot be read. -/
def SourceFile.sites (source : SourceFile) : List Site :=
  match Item.ofText? source.content with
  | some items => Item.sitesOf source.path source.home items items
  | none => []

/-- The declarations of a file by the characters of its content. -/
theorem SourceFile.sites_ofList (path : FilePath) (home : String) (chars : List Char)
    : SourceFile.sites ⟨path, home, String.ofList chars⟩
      = (Item.ofChars? chars).elim [] fun items => Item.sitesOf path home items items := by
  unfold sites
  rw [Item.ofText?_ofList]
  cases Item.ofChars? chars <;> rfl

namespace Index

/-- A file that cannot be read changes nothing. -/
theorem lodges_take (index : Index) (source : SourceFile)
    : Lodges index (index.take source).state source.sites := by
  unfold SourceFile.sites
  cases read : Item.ofText? source.content with
  | none =>
      have kept : (index.take source).state = index := by simp [take, add, read, Reply.failed]
      rw [kept]
      exact .refl index
  | some items =>
      have taken : (index.take source).state = index.addParsed source.path source.home items := by
        simp [take, add, read, Reply.telling, Reply.done]
      rw [taken]
      exact lodges_addParsed index source.path source.home items

/-- Files are added one behind the other, by induction on them. -/
theorem lodges_foldl_take (index : Index) (sources : List SourceFile)
    : Lodges index (sources.foldl (fun index source => (index.take source).state) index)
        (sources.flatMap SourceFile.sites) := by
  induction sources generalizing index with
  | nil => exact .refl index
  | cons source rest ih => exact (lodges_take index source).trans (ih _)

-----------------------------------------------------------------------------------------
-- What is answered in a scope
-----------------------------------------------------------------------------------------

section

variable {index : Index} {marked : Marked} {scope : Scope}

/-- In a scope, the owner has no type just if its path has none there. -/
theorem ownerType?_eq_none_iff (opened : index.scopes[marked.scope]? = some scope)
    : index.ownerType? marked = none
      ↔ ∀ path, marked.owner = some path → index.resolve? scope none path = none := by
  rw [ownerType?, opened]
  cases marked.owner with
  | none => simp
  | some path => simp

/-- In a scope, the parameters have types if the path of each has one there. -/
theorem exists_parameterTypes? (opened : index.scopes[marked.scope]? = some scope)
    (resolves
      : ∀ parameter ∈ marked.parameters,
          ∃ path,
            parameter.shape = .shared path
              ∧ index.resolve? scope (index.ownerType? marked) path ≠ none)
    : ∃ types, index.parameterTypes? marked = some types := by
  rw [parameterTypes?, opened]
  refine exists_mapM_eq_some fun parameter among => ?_
  obtain ⟨path, shared, resolved⟩ := resolves parameter among
  rw [shared]
  exact Option.ne_none_iff_exists'.mp resolved

/-- In a scope, the parameters have no types just if one is unsupported or has a path that has none
there. They have types as soon as each of them has one.
-/
theorem parameterTypes?_eq_none_iff (opened : index.scopes[marked.scope]? = some scope)
    : index.parameterTypes? marked = none
      ↔ ∃ parameter ∈ marked.parameters,
          ∀ path,
            parameter.shape = .shared path
              → index.resolve? scope (index.ownerType? marked) path = none := by
  cases found : index.parameterTypes? marked with
  | some types =>
      obtain ⟨other, openedOther, each⟩ := forall₂_of_parameterTypes? found
      obtain rfl := Option.some.inj (opened.symm.trans openedOther)
      refine iff_of_false (by simp) ?_
      rintro ⟨parameter, among, missing⟩
      obtain ⟨type, -, path, shared, resolved⟩ := exists_of_forall₂ each among
      rw [missing path shared] at resolved
      contradiction
  | none =>
      refine iff_of_true rfl ?_
      by_contra resolves
      push Not at resolves
      obtain ⟨types, answered⟩ := exists_parameterTypes? opened resolves
      rw [found] at answered
      contradiction

end

/-- After any files, those of their declarations that carry the marker and are read are the ones that
are marked, in their order. Each has the number of a scope of its module, which is that of the body it
stands in: it holds what is imported directly in that body and nothing else. The numbers stay valid
when more files are added, and a type that is not found is never one that lacks a scope. Every site is
lodged in the scope of its body, and later files only append scopes.
-/
theorem ofAdditions_scopes_exact (marker : String) (sources : List SourceFile)
    : let index := ofAdditions marker sources
      List.Forall₂
          (fun site marked =>
            site.declaration.marked? site.file = some (marked.atScope 0)
              ∧ ∃ scope,
                  marked.scope < index.scopes.length
                    ∧ index.scopes[marked.scope]? = some scope
                    ∧ scope.IsOf marked.home site.body
                    ∧ (index.ownerType? marked = none
                      ↔ ∀ path, marked.owner = some path → index.resolve? scope none path = none)
                    ∧ (index.parameterTypes? marked = none
                      ↔ ∃ parameter ∈ marked.parameters,
                          ∀ path,
                            parameter.shape = .shared path
                              → index.resolve? scope (index.ownerType? marked) path = none))
          ((sources.flatMap SourceFile.sites).filter (Site.isRecorded marker)) index.marked
        ∧ ∀ more,
            index.scopes <+: (ofAdditions marker (sources ++ more)).scopes
              ∧ index.marked <+: (ofAdditions marker (sources ++ more)).marked := by
  intro index
  have lodges : Lodges { marker } index _ := lodges_foldl_take { marker } sources
  obtain ⟨added, grown, each⟩ := lodges.marked
  have all : index.marked = added := grown
  refine ⟨all ▸ each.imp fun site marked lodged => ?_, fun more => ?_⟩
  · have below := (List.getElem?_eq_some_iff.mp lodged.scope).1
    exact ⟨lodged.declaration, _, below, lodged.scope, Scope.isOf_ofItems _ _,
      ownerType?_eq_none_iff lodged.scope, parameterTypes?_eq_none_iff lodged.scope⟩
  · have further
        : Lodges index (ofAdditions marker (sources ++ more)) (more.flatMap SourceFile.sites) := by
      rw [ofAdditions, List.foldl_append]
      exact lodges_foldl_take index more
    obtain ⟨later, grownMore, -⟩ := further.marked
    exact ⟨further.scopes, later, grownMore.symm⟩

/-- A module in a module, with an import behind each of them. -/
private def nestedBodies : SourceFile :=
  ⟨⟨"src/lib.rs"⟩, "crate",
    "mod net{mod tls{use crate::keys::Keys;struct Tls;impl Tls{#[inject]fn new(k:Arc<Keys>)->Self{Tls}}}use self::tls::Tls;struct Client;impl Client{#[inject]fn new(t:Arc<Tls>)->Self{Client}}}use net::Client;struct App;impl App{#[inject]fn new(c:Arc<Client>)->Self{App}}"⟩

/-- The three constructors are recorded from the inside out. -/
private theorem homes_nestedBodies
    : (ofAdditions "inject" [nestedBodies]).marked.map Marked.home
      = ["crate::net::tls", "crate::net", "crate"] := by
  rw [ofAdditions, List.foldl_cons, List.foldl_nil, nestedBodies, state_take_ofList]
  decide +kernel

/-- Each of the bodies writes an import of its own, behind its submodule. -/
private theorem importsWritten_nestedBodies
    : (nestedBodies.sites.filter (Site.isRecorded "inject")).map
        (fun site => importsWritten site.body)
      = [[.named "Keys" ⟨false, ["crate", "keys", "Keys"]⟩],
          [.named "Tls" ⟨false, ["self", "tls", "Tls"]⟩],
          [.named "Client" ⟨false, ["net", "Client"]⟩]] := by
  rw [nestedBodies, SourceFile.sites_ofList]
  decide +kernel

/-- Each constructor is found in the scope of the body around it, which holds the one import of that body:
also where the import stands behind an inner module, whose scope has been opened by then.
-/
theorem ofAdditions_scopes_exact_nestedBodies
    : let index := ofAdditions "inject" [nestedBodies]
      index.marked.map Marked.home = ["crate::net::tls", "crate::net", "crate"]
        ∧ List.Forall₂
            (fun imports marked =>
              ∃ scope body,
                index.scopes[marked.scope]? = some scope
                  ∧ scope.IsOf marked.home body
                  ∧ importsWritten body = imports)
            [[Import.named "Keys" ⟨false, ["crate", "keys", "Keys"]⟩],
              [.named "Tls" ⟨false, ["self", "tls", "Tls"]⟩],
              [.named "Client" ⟨false, ["net", "Client"]⟩]]
            index.marked := by
  have pairs := (ofAdditions_scopes_exact "inject" [nestedBodies]).1
  rw [List.flatMap_singleton] at pairs
  refine ⟨homes_nestedBodies, ?_⟩
  rw [← importsWritten_nestedBodies, List.forall₂_map_left_iff]
  exact pairs.imp fun site marked ⟨_, scope, _, opened, isOf, _⟩ =>
    ⟨scope, site.body, opened, isOf, rfl⟩

end Index

end Wiring
