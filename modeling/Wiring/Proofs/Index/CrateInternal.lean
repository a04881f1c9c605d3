import Wiring.Proofs.Index.Footprint
import Wiring.Proofs.Index.NamedPaths
import Wiring.Proofs.QualifiedNames

/-! Types of the crate. Whatever is answered for a marked declaration either is declared somewhere in the
files added, or lies outside the crate.
-/

namespace Wiring

open Source Segments

-----------------------------------------------------------------------------------------
-- Texts
-----------------------------------------------------------------------------------------

/-- No separator stands in front of joined identifiers. -/
theorem Segments.dropLeading_join {segments : List String}
    (tokens : ∀ segment ∈ segments, Identifier.isToken segment = true)
    : dropLeading (join segments) = join segments := by
  rcases isPathOrEmpty_join tokens with empty | path
  · rw [empty]
    rfl
  · exact path.dropLeading_eq

namespace Index

/-- The first segment of what is in the crate is `crate`. -/
theorem split_of_isInCrate {text : String} (inside : isInCrate text = true)
    : ∃ rest, split text = "crate" :: rest := by
  obtain ⟨rest, same⟩ := String.startsWith_string_iff.mp inside
  have chars : text.toList = "crate".toList ++ ':' :: ':' :: rest := by
    rw [← same]
    rfl
  exact ⟨(splitChars rest).map String.ofList, by
    rw [split, chars, splitChars_append (by decide)]
    rfl⟩

/-- The first segment of a module of the crate is the crate. -/
theorem IsCrateModule.split {home : String} (inside : IsCrateModule home)
    : ∃ rest, split home = "crate" :: rest := by
  rcases inside with rfl | inside
  · exact ⟨[], rfl⟩
  · exact split_of_isInCrate inside

/-- So there is no separator to be dropped from its front. -/
theorem IsCrateModule.dropLeading {home : String} (inside : IsCrateModule home)
    : dropLeading home = home := by
  obtain ⟨rest, same⟩ := inside.split
  rw [← join_split home, same]
  exact dropLeading_of_starts (starts_join ⟨'c', rfl, by decide⟩ rest)

/-- Whatever is written in a module of the crate, its absolute form has no separators in front. -/
theorem dropLeading_of_absolute? {index : Index} {home : String} (inside : IsCrateModule home)
    {path : SpelledPath} (named : path.Named) {text : String}
    (found : index.absolute? home path = some text)
    : dropLeading text = text := by
  obtain rfl | ⟨outer, rest, some, above, _, rfl⟩ := absolute?_eq_some found
  · exact dropLeading_join named
  · -- However many modules are left, `crate` stays in front.
    obtain ⟨below, same⟩ := inside.split
    rw [same, List.prefix_cons_iff] at above
    obtain ⟨more, rfl, _⟩ := above.resolve_left some
    exact dropLeading_of_starts (starts_join (starts_join ⟨'c', rfl, by decide⟩ more) rest)

/-- Only paths that start with `crate` are in the crate. -/
theorem head?_of_isInCrate_join {segments : List String}
    (tokens : ∀ segment ∈ segments, Identifier.isToken segment = true)
    (inside : isInCrate (join segments) = true)
    : segments.head? = some "crate" := by
  obtain ⟨rest, same⟩ := split_of_isInCrate inside
  cases segments with
  | nil => contradiction
  | cons first more =>
      rw [split_join (List.cons_ne_nil _ _) fun segment member =>
        isSingle_of_isToken (tokens segment member)] at same
      rw [same]
      rfl

end Index

namespace TypeName

/-- A type is spelled as the text that it was read from. -/
theorem qualified_of_parse? {text : String} {type : TypeName} (plain : dropLeading text = text)
    (read : parse? text = some type)
    : type.qualified = text :=
  (qualified_eq_dropLeading read).trans plain

/-- A local type is in the crate, since its module is. -/
theorem isInCrate_of_isLocal {type : TypeName} (inside : type.isLocal = true)
    : Index.isInCrate type.qualified = true :=
  Index.isInCrate_within (by simpa [isLocal, Index.IsCrateModule, Index.isInCrate] using inside)
    type.name

end TypeName

-----------------------------------------------------------------------------------------
-- Declarations
-----------------------------------------------------------------------------------------

/-- Modules of the crate, which are closed under names. -/
def HomeKind.ofCrate : HomeKind :=
  ⟨Index.IsCrateModule, fun inside _ => .inr (Index.isInCrate_within inside _)⟩

/-- Whether a type is declared unless it lies outside the crate. -/
def Index.Backs (index : Index) (type : TypeName) : Prop :=
  type.isLocal = true → index.declares type.qualified = true

/-- Whether the path starts with `::crate`, which is not valid. -/
def SpelledPath.IsRootedInCrate (path : SpelledPath) : Prop :=
  path.rooted = true ∧ path.segments.head? = some "crate"

instance (path : SpelledPath) : Decidable path.IsRootedInCrate :=
  inferInstanceAs (Decidable (path.rooted = true ∧ path.segments.head? = some "crate"))

namespace Index.NamedIn

variable {index : Index}

/-- Of all that the type at a path can come from, only declarations are in the crate, by the origins of
a type; a path that is read as a type of its own text would have to be in the crate, and is not.
-/
theorem backs_of_resolve? (named : index.NamedIn .ofCrate) {scope : Scope}
    (among : scope ∈ index.scopes) {owner : Option TypeName} (own : ∀ type ∈ owner, index.Backs type)
    {path : SpelledPath} (spelled : path.Named) (proper : ¬path.IsRootedInCrate) {type : TypeName}
    (found : index.resolve? scope owner path = some type)
    : index.Backs type := by
  intro isLocal
  have inCrate := TypeName.isInCrate_of_isLocal isLocal
  cases Origin.of_resolve? found with
  | rooted rooted read =>
      rw [TypeName.qualified_of_parse? (dropLeading_join spelled) read] at inCrate
      exact absurd ⟨rooted, head?_of_isInCrate_join spelled inCrate⟩ proper
  | owner _ same => exact own type same isLocal
  | @declaration text declared read =>
      have inside : IsCrateModule text := named.declared text (by simpa [declares] using declared)
      rw [TypeName.qualified_of_parse? inside.dropLeading read]
      exact declared
  | outside stands leads outside read =>
      -- The path is read as a type of its own text, which would have to be in the crate.
      obtain ⟨inside, written⟩ := named.written among spelled stands
      have plain := dropLeading_of_absolute? inside written leads
      rw [TypeName.qualified_of_parse? plain read, outside] at inCrate
      contradiction
  | prelude found =>
      obtain ⟨-, rfl⟩ := Prod.mk.inj (List.mem_singleton.mp (mem_of_lookup found))
      exact absurd isLocal (by decide +kernel)

/-- The type of an owner is backed by a declaration, or is not in the crate at all. -/
theorem backs_of_ownerType? (named : index.NamedIn .ofCrate) {marked : Marked}
    (present : marked ∈ index.marked) (proper : ∀ path ∈ marked.paths, ¬path.IsRootedInCrate)
    {type : TypeName} (found : index.ownerType? marked = some type)
    : index.Backs type := by
  obtain ⟨scope, path, opened, owned, resolved⟩ := resolve?_of_ownerType? found
  have written : path ∈ marked.paths := by simp [Marked.paths, owned]
  exact named.backs_of_resolve? (List.mem_of_getElem? opened) (by simp)
    ((named.marked marked present).owner path owned) (proper path written) resolved

end Index.NamedIn

namespace Index

/-- The index of source files that are added one after the other. Those that cannot be parsed are passed
over.
-/
def ofAdditions (marker : String) (sources : List SourceFile) : Index :=
  sources.foldl (fun index source => (index.take source).state) { marker }

/-- Each file adds modules of the crate alone, by induction on the files. -/
theorem namedIn_ofAdditions (marker : String) {sources : List SourceFile}
    (homes : ∀ source ∈ sources, IsCrateModule source.home)
    : (ofAdditions marker sources).NamedIn .ofCrate :=
  List.foldlRecOn sources _ (NamedIn.empty .ofCrate marker)
    fun _ named source member => named.take (homes source member)

/-- What is answered for a marked declaration in files of the crate: the type of the owner, and one
type for each parameter in order. `Self` stands for the owner, and a type of the crate is declared in
the files. The index of such files is named, and each type has an origin.
-/
theorem ofAdditions_types_declared (marker : String) {sources : List SourceFile}
    (homes : ∀ source ∈ sources, IsCrateModule source.home) {marked : Marked}
    (present : marked ∈ (ofAdditions marker sources).marked)
    (proper : ∀ path ∈ marked.paths, ¬path.IsRootedInCrate)
    : let index := ofAdditions marker sources
      (∀ type, index.ownerType? marked = some type → index.Backs type)
        ∧ ∀ types, index.parameterTypes? marked = some types →
            (∀ type ∈ types, index.Backs type)
              ∧ ∃ scope,
                  index.scopes[marked.scope]? = some scope
                    ∧ List.Forall₂
                        (fun parameter type =>
                          ∃ path,
                            parameter.shape = .shared path
                              ∧ index.resolve? scope (index.ownerType? marked) path = some type
                              ∧ (path = .single "Self" → index.ownerType? marked = some type))
                        marked.parameters types := by
  intro index
  have named : index.NamedIn .ofCrate := namedIn_ofAdditions marker homes
  have owner : ∀ type, index.ownerType? marked = some type → index.Backs type :=
    fun type found => named.backs_of_ownerType? present proper found
  refine ⟨owner, fun types found => ?_⟩
  obtain ⟨scope, opened, each⟩ := forall₂_of_parameterTypes? found
  refine ⟨fun type member => ?_, scope, opened, each.imp ?_⟩
  · obtain ⟨parameter, among, path, shared, resolved⟩ := exists_of_forall₂ each.flip member
    have spelled := (named.marked marked present).parameters parameter among
    rw [shared] at spelled
    have written : path ∈ marked.paths :=
      List.mem_append_right _ (List.mem_filterMap.mpr ⟨parameter, among, by rw [shared]⟩)
    exact named.backs_of_resolve? (List.mem_of_getElem? opened) owner spelled (proper path written)
      resolved
  · rintro parameter type ⟨path, shared, resolved⟩
    refine ⟨path, shared, resolved, ?_⟩
    rintro rfl
    exact resolved

/-- A root that exports a client from two modules further down. -/
private def exportingRoot : SourceFile :=
  ⟨⟨"src/lib.rs"⟩, "crate", "pub use net::http::Client;"⟩

/-- A module with the client below it, which imports it through the root. -/
private def importingFile : SourceFile :=
  ⟨⟨"src/net.rs"⟩, "crate::net",
    "pub mod http{pub struct Client;}use crate::Client;struct Repo;impl Repo{#[inject]fn new(client:Arc<Client>,outer:Arc<Self>)->Self{Repo}}"⟩

/-- What is recorded of its constructor. -/
private def importingMarked : Marked := {
  location := ⟨⟨"src/net.rs"⟩, 1⟩
  home := "crate::net"
  scope := 1
  owner := some (.single "Repo")
  ownerIsGeneric := false
  name := "new"
  objection := none
  parameters := [⟨"client", .shared (.single "Client")⟩, ⟨"outer", .shared (.single "Self")⟩]
}

/-- The index of both files. -/
private def importingIndex : Index := {
  marker := "inject"
  scopes :=
    [⟨"crate", [.named "Client" ⟨false, ["net", "http", "Client"]⟩]⟩,
      ⟨"crate::net", [.named "Client" ⟨false, ["crate", "Client"]⟩]⟩,
      ⟨"crate::net::http", []⟩]
  declared := ["crate::net::http::Client", "crate::net::Repo"]
  modules := ["crate", "crate::net", "crate", "crate::net::http", "crate::net", "crate"]
  reexports := [⟨"crate", .named "Client" ⟨false, ["net", "http", "Client"]⟩⟩]
  marked := [importingMarked]
  files := [⟨"src/lib.rs"⟩, ⟨"src/net.rs"⟩]
}

/-- Both files make up that index. -/
private theorem ofAdditions_importing
    : ofAdditions "inject" [exportingRoot, importingFile] = importingIndex := by
  rw [ofAdditions, List.foldl_cons, List.foldl_cons, List.foldl_nil, exportingRoot, importingFile,
    state_take_ofList, state_take_ofList]
  decide +kernel

/-- A parameter whose type is imported from the root of the crate, which imports it from where it is
declared; and one of the type of the owner. Both types are of the crate, so they are declared.
-/
theorem ofAdditions_types_declared_importing
    : let index := ofAdditions "inject" [exportingRoot, importingFile]
      importingMarked ∈ index.marked
        ∧ index.ownerType? importingMarked = some ⟨"crate::net", "Repo"⟩
        ∧ index.parameterTypes? importingMarked
          = some [⟨"crate::net::http", "Client"⟩, ⟨"crate::net", "Repo"⟩]
        ∧ ∀ type ∈ [⟨"crate::net::http", "Client"⟩, ⟨"crate::net", "Repo"⟩],
            index.declares (TypeName.qualified type) = true := by
  have homes : ∀ source ∈ [exportingRoot, importingFile], IsCrateModule source.home :=
    List.forall_mem_cons.mpr ⟨.inl rfl, List.forall_mem_singleton.mpr (.inr (by decide +kernel))⟩
  have backed
      (present : importingMarked ∈ (ofAdditions "inject" [exportingRoot, importingFile]).marked) :=
    (ofAdditions_types_declared "inject" homes present (by decide)).2
  rw [ofAdditions_importing] at backed ⊢
  have parameters
      : importingIndex.parameterTypes? importingMarked
        = some [⟨"crate::net::http", "Client"⟩, ⟨"crate::net", "Repo"⟩] := by
    decide +kernel
  refine ⟨List.mem_singleton.mpr rfl, by decide +kernel, parameters, fun type member => ?_⟩
  have isLocal : type.isLocal = true := by
    revert type
    decide +kernel
  exact (backed (List.mem_singleton.mpr rfl) _ parameters).1 type member isLocal

end Index

end Wiring
