import Wiring.Proofs.Index.ModuleTree

/-! Modules that are imported publicly. A public import is followed where it names the type that a path
leads to, or everything around it. Where it names a module on the way, nothing below that name is found.
-/

namespace Wiring

open Segments

/-- A name in a module of the crate is read back, since the last separator stands in front of it. -/
theorem TypeName.parse?_within {home name : String} (inside : Index.IsCrateModule home)
    (token : Source.Identifier.isToken name = true)
    : parse? (within home name) = some ⟨home, name⟩ := by
  have plain : dropLeading (within home name) = within home name :=
    Index.IsCrateModule.dropLeading (.inr (Index.isInCrate_within inside name))
  have homeSome : home ≠ "" := by
    intro empty
    subst empty
    rcases inside with contrary | contrary
    · contradiction
    · exact absurd contrary (by decide +kernel)
  have nameSome : name ≠ "" := by
    intro empty
    subst empty
    contradiction
  rw [parse?, plain, splitLast?_within home (isSingle_of_isToken token)]
  simp [homeSome, nameSome]

namespace Index

variable {index : Index}

-----------------------------------------------------------------------------------------
-- Paths of one meaning
-----------------------------------------------------------------------------------------

/-- What is answered for a path of the crate: wherever another path stands that means it, and in each scope
for the path itself.
-/
structure Answers (index : Index) (text : String) (answer : Option TypeName) : Prop where
  qualified
    : ∀ home path, index.absolute? home path = some text → index.qualify? home path = answer
  resolved : ∀ scope owner, index.resolve? scope owner ⟨false, split text⟩ = answer

/-- In the crate, there are at least two segments. -/
theorem exists_split_of_isInCrate {text : String} (inside : isInCrate text = true)
    : ∃ second rest, split text = "crate" :: second :: rest := by
  obtain ⟨segments, same⟩ := split_of_isInCrate inside
  cases segments with
  | cons second rest => exact ⟨second, rest, same⟩
  | nil =>
      have alone : text = "crate" := by
        rw [← join_split text, same]
        rfl
      subst alone
      exact absurd inside (by decide +kernel)

/-- All paths of one meaning are answered alike. -/
theorem answers_of_isInCrate {text : String} (inside : isInCrate text = true)
    : index.Answers text ((index.declaration? hopLimit text).bind TypeName.parse?) := by
  have qualified (home : String) (path : SpelledPath) (leads : index.absolute? home path = some text)
      : index.qualify? home path = (index.declaration? hopLimit text).bind TypeName.parse? := by
    simp [qualify?, leads, inside]
  refine ⟨qualified, fun scope owner => ?_⟩
  obtain ⟨second, rest, same⟩ := exists_split_of_isInCrate inside
  have whole : join ("crate" :: second :: rest) = text := by
    rw [← same, join_split]
  have leads : index.absolute? scope.home ⟨false, "crate" :: second :: rest⟩ = some text := by
    simp [absolute?, whole]
  rw [same]
  simp only [resolve?, Bool.false_eq_true, if_false]
  split
  · exact qualified scope.home _ leads
  · exact qualified scope.home _ leads

/-- A path below a module of the crate is in the crate, by induction on its segments. -/
theorem isCrateModule_join {home : String} (inside : IsCrateModule home) (below : List String)
    : IsCrateModule (join (home :: below)) := by
  induction below generalizing home with
  | nil => exact inside
  | cons name rest ih =>
      rw [join_cons_cons]
      exact ih (.inr (isInCrate_within inside name))

/-- What is below a module of the crate is in the crate. -/
theorem isInCrate_join {home : String} (inside : IsCrateModule home) {below : List String}
    (some : below ≠ [])
    : isInCrate (join (home :: below)) = true := by
  obtain ⟨outer, name, rfl⟩ : ∃ outer name, below = outer ++ [name] :=
    ⟨_, _, (List.dropLast_append_getLast some).symm⟩
  rw [← List.cons_append, join_append_singleton (List.cons_ne_nil _ _)]
  exact isInCrate_within (isCrateModule_join inside outer) name

-----------------------------------------------------------------------------------------
-- Public imports of a type
-----------------------------------------------------------------------------------------

section

variable {base type path : String} (inside : IsCrateModule base)
  (token : Source.Identifier.isToken type = true) (inCrate : isInCrate path = true)

include inside token inCrate

/-- Where a declaration is found, both ways to ask lead to its type. -/
theorem answers_of_declaration? (found : index.declaration? hopLimit path = some (within base type))
    : index.Answers path (some ⟨base, type⟩) := by
  have answers := @answers_of_isInCrate index path inCrate
  rw [found, Option.bind_some, TypeName.parse?_within inside token] at answers
  exact answers

/-- A type is found at a path that a public import names, and that leads to it. -/
theorem answers_of_namedHop (declared : index.declares (within base type) = true)
    (undeclared : index.declares path = false) (hop : index.NamedHop path (within base type))
    : index.Answers path (some ⟨base, type⟩) := by
  apply answers_of_declaration? inside token inCrate
  calc
    index.declaration? hopLimit path
    _ = index.declaration? 15 (within base type) := by
      rw [hopLimit, declaration?_of_namedHop undeclared hop, if_pos (isInCrate_within inside type)]
    _ = some (within base type) := declaration?_of_declares declared 15

/-- It is found at a path to which a public import of everything leads, if none leads to another type.
No named import stands in the way, and whatever a search finds has come through one of everything.
-/
theorem answers_of_globHop (declared : index.declares (within base type) = true)
    (undeclared : index.declares path = false) (hop : index.GlobHop path (within base type))
    (unambiguous
      : ∀ next last,
          index.GlobHop path next → index.declaration? 15 next = some last → last = within base type)
    : index.Answers path (some ⟨base, type⟩) := by
  have unnamed {target : String} (named : index.NamedHop path target) : False := by
    obtain ⟨home, name, written, parts, bound, _⟩ := named
    obtain ⟨outer, last, _, _, sameParts, unbound, _⟩ := hop
    obtain ⟨rfl, rfl⟩ := Prod.mk.inj (Option.some.inj (parts.symm.trans sameParts))
    rw [bound] at unbound
    contradiction
  have some : (index.declaration? hopLimit path).isSome = true :=
    isSome_declaration?_of_globHop undeclared hop (by rw [declaration?_of_declares declared]; rfl)
  obtain ⟨last, found⟩ := Option.isSome_iff_exists.mp some
  apply answers_of_declaration? inside token inCrate
  rcases declaration?_succ_eq_some found with
    ⟨contrary, _⟩ | ⟨_, ⟨_, named⟩ | ⟨next, _, named | globbed, answered⟩⟩
  · rw [undeclared] at contrary
    contradiction
  · exact (unnamed named).elim
  · exact (unnamed named).elim
  · rw [found, unambiguous next last globbed answered]

end

-----------------------------------------------------------------------------------------
-- Public imports of a module
-----------------------------------------------------------------------------------------

/-- The name under which a module is imported publicly leads nowhere, unless another module has that name
in the same place: whatever is declared in the imported module, nothing is found below the name. Each type
is found below its own module, and wherever it is imported publicly itself, by name or with everything
around it.
-/
theorem ofAdditions_reexportedModule (marker : String) {sources : List SourceFile}
    (homes : ∀ source ∈ sources, IsCrateModule source.home) {home name : String} {written : SpelledPath}
    (reexported : (ofAdditions marker sources).namedReexport? home name = some written)
    (missing : within home name ∉ (ofAdditions marker sources).modules)
    : let index := ofAdditions marker sources
      (∀ below ≠ [],
          (∀ segment ∈ below, Source.Identifier.isToken segment = true)
          → index.Answers (join (within home name :: below)) none)
        ∧ ∀ base type,
            IsCrateModule base
            → Source.Identifier.isToken type = true
            → index.declares (within base type) = true
            → index.Answers (within base type) (some ⟨base, type⟩)
              ∧ ∀ path,
                  isInCrate path = true
                  → index.declares path = false
                  → (index.NamedHop path (within base type)
                      → index.Answers path (some ⟨base, type⟩))
                    ∧ (index.GlobHop path (within base type)
                      → (∀ next last,
                          index.GlobHop path next
                          → index.declaration? 15 next = some last
                          → last = within base type)
                      → index.Answers path (some ⟨base, type⟩)) := by
  intro index
  have named : index.NamedIn .ofCrate := namedIn_ofAdditions marker homes
  have modular : index.Modular := modular_ofAdditions marker sources
  refine ⟨fun below some tokens => ?_, fun base type inside token declared =>
    ⟨?_, fun path inCrate undeclared => ⟨?_, ?_⟩⟩⟩
  · have around : IsCrateModule home := (named.namedReexport? reexported).1
    have inCrate : isInCrate (join (within home name :: below)) = true :=
      isInCrate_join (.inr (isInCrate_within around name)) some
    have answers := @answers_of_isInCrate index _ inCrate
    rw [modular.declaration?_below missing some tokens, Option.bind_none] at answers
    exact answers
  · exact answers_of_declaration? inside token (isInCrate_within inside type)
      (declaration?_of_declares declared hopLimit)
  · exact answers_of_namedHop inside token inCrate declared undeclared
  · exact answers_of_globHop inside token inCrate declared undeclared

/-- A module that declares a client. -/
private def netFile : SourceFile :=
  ⟨⟨"src/net.rs"⟩, "crate::net", "pub struct Client;"⟩

/-- A module that exports the other module and its client. -/
private def exportingApi : SourceFile :=
  ⟨⟨"src/api.rs"⟩, "crate::api", "pub use crate::net;pub use crate::net::Client;"⟩

/-- The index of both. -/
private def exportedNet : Index := {
  marker := "inject"
  scopes :=
    [⟨"crate::net", []⟩,
      ⟨"crate::api",
        [.named "net" ⟨false, ["crate", "net"]⟩, .named "Client" ⟨false, ["crate", "net", "Client"]⟩]⟩]
  declared := ["crate::net::Client"]
  modules := ["crate::net", "crate", "crate::api", "crate"]
  reexports :=
    [⟨"crate::api", .named "net" ⟨false, ["crate", "net"]⟩⟩,
      ⟨"crate::api", .named "Client" ⟨false, ["crate", "net", "Client"]⟩⟩]
  files := [⟨"src/net.rs"⟩, ⟨"src/api.rs"⟩]
}

/-- Both files make up that index. -/
private theorem ofAdditions_exportedNet
    : ofAdditions "inject" [netFile, exportingApi] = exportedNet := by
  rw [ofAdditions, List.foldl_cons, List.foldl_cons, List.foldl_nil, netFile, exportingApi,
    state_take_ofList, state_take_ofList]
  decide +kernel

/-- A module that another one imports publicly, together with a type of it: the type is found under its own
name there, but not below the name of the module.
-/
theorem ofAdditions_reexportedModule_net
    : let index := ofAdditions "inject" [netFile, exportingApi]
      index.Answers "crate::api::net::Client" none
        ∧ index.Answers "crate::net::Client" (some ⟨"crate::net", "Client"⟩)
        ∧ index.Answers "crate::api::Client" (some ⟨"crate::net", "Client"⟩) := by
  have homes : ∀ source ∈ [netFile, exportingApi], IsCrateModule source.home := by
    refine List.forall_mem_cons.mpr ⟨.inr ?_, List.forall_mem_singleton.mpr (.inr ?_)⟩
    · decide +kernel
    · decide +kernel
  have found := @ofAdditions_reexportedModule "inject" [netFile, exportingApi] homes "crate::api" "net"
  rw [ofAdditions_exportedNet] at found ⊢
  obtain ⟨nowhere, somewhere⟩ := found rfl (by decide +kernel)
  obtain ⟨own, elsewhere⟩ :=
    somewhere "crate::net" "Client" (.inr (by decide +kernel)) (by decide) (by decide)
  have hop : exportedNet.NamedHop "crate::api::Client" "crate::net::Client" :=
    ⟨"crate::api", "Client", ⟨false, ["crate", "net", "Client"]⟩, by decide +kernel, rfl, rfl⟩
  refine ⟨nowhere ["Client"] (by simp) (by decide), own, ?_⟩
  exact (elsewhere "crate::api::Client" (by decide +kernel) (by decide)).1 hop

/-- A type of a module of the crate that another one imports publicly under its name: the path through that
name is not the path of the type.
-/
theorem not_resolve?_throughReexportedModule
    : let index := ofAdditions "inject" [netFile, exportingApi]
      index.namedReexport? "crate::api" "net" = some ⟨false, ["crate", "net"]⟩
        ∧ index.absolute? "crate::api" ⟨false, ["crate", "net"]⟩ = some "crate::net"
        ∧ "crate::net" ∈ index.modules
        ∧ index.declares "crate::net::Client" = true
        ∧ index.resolve? ⟨"crate::net", []⟩ none ⟨false, ["crate", "api", "net", "Client"]⟩
          ≠ some ⟨"crate::net", "Client"⟩ := by
  intro index
  have same : index = exportedNet := ofAdditions_exportedNet
  rw [same]
  exact ⟨rfl, rfl, by decide, by decide, by decide +kernel⟩

end Index

end Wiring
