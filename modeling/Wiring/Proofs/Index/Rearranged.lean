import Mathlib.Data.List.Dedup
import Mathlib.Data.List.Perm.Basic
import Wiring.Proofs.Index.Footprint
import Wiring.Proofs.Index.Placement

/-! Indexes of the same content in another order. They answer all questions alike, so they have the same
candidates. Files that are added in another order rearrange an index, as long as no two of them import
publicly in the same module.
-/

namespace Wiring

open Source

/-- The same candidate, but for the number of its scope. -/
def Candidate.unnumbered (candidate : Candidate) : Candidate :=
  { candidate with marked := candidate.marked.atScope 0 }

namespace Index

/-- The later index has the declarations of the earlier one, in some order. -/
structure Rearranged (first second : Index) : Prop where
  marker : second.marker = first.marker
  declared : ∀ name, name ∈ second.declared ↔ name ∈ first.declared
  modules : ∀ name, name ∈ second.modules ↔ name ∈ first.modules
  reexports
    : ∀ home, second.reexports.filter (·.home = home) = first.reexports.filter (·.home = home)
  placed : first.placed.Perm second.placed

namespace Rearranged

variable {first second : Index}

/-- An index is a rearrangement of itself. -/
theorem refl (index : Index) : Rearranged index index :=
  ⟨rfl, fun _ => Iff.rfl, fun _ => Iff.rfl, fun _ => rfl, .refl _⟩

/-- Rearranging is symmetric, part by part. -/
theorem symm (rearranged : Rearranged first second) : Rearranged second first :=
  ⟨rearranged.marker.symm, fun name => (rearranged.declared name).symm,
    fun name => (rearranged.modules name).symm, fun home => (rearranged.reexports home).symm,
    rearranged.placed.symm⟩

/-- Order makes no difference to any question. -/
theorem alike (rearranged : Rearranged first second) (question : Question)
    : Alike first second question := by
  cases question with
  | declares name =>
      refine Bool.eq_iff_iff.mpr ?_
      rw [declares, declares, List.contains_iff_mem, List.contains_iff_mem]
      exact rearranged.declared name
  | hasModule name =>
      refine Bool.eq_iff_iff.mpr ?_
      rw [List.contains_iff_mem, List.contains_iff_mem]
      exact rearranged.modules name
  | reexport home name => simp only [Alike, namedReexport?, rearranged.reexports home]
  | globs home => simp only [Alike, reexportedGlobs, rearranged.reexports home]

/-- The declarations correspond to one another. -/
theorem exists_corresponding (rearranged : Rearranged first second)
    : ∃ order,
        order.Perm second.marked ∧ List.Forall₂ (Corresponds first second) first.marked order := by
  have here : List.Forall₂
      (fun entry marked => entry = (Marked.atScope marked 0, second.scopes[marked.scope]?))
      second.placed second.marked := by
    rw [Index.placed, List.forall₂_map_left_iff]
    exact List.forall₂_same.mpr fun _ _ => rfl
  obtain ⟨order, pairs, perm⟩ := List.perm_comp_forall₂ rearranged.placed here
  refine ⟨order, perm, ?_⟩
  rw [Index.placed, List.forall₂_map_left_iff] at pairs
  refine pairs.imp fun marked other same => ?_
  exact ⟨(Prod.mk.inj same).1.symm, (Prod.mk.inj same).2.symm⟩

/-- Corresponding declarations have the same types in both indexes, since their scopes and paths are
the same and questions are answered alike.
-/
theorem types_eq (rearranged : Rearranged first second) {marked other : Marked}
    (corresponds : Corresponds first second marked other)
    : second.ownerType? other = first.ownerType? marked
      ∧ second.parameterTypes? other = first.parameterTypes? marked := by
  have owners : other.owner = marked.owner := congrArg (·.owner) corresponds.declaration
  have parameters : other.parameters = marked.parameters :=
    congrArg (·.parameters) corresponds.declaration
  cases here : first.scopes[marked.scope]? with
  | none =>
      have there : second.scopes[other.scope]? = none := corresponds.scope.trans here
      simp only [ownerType?, parameterTypes?, here, there, and_self]
  | some scope =>
      have there : second.scopes[other.scope]? = some scope := corresponds.scope.trans here
      exact types_eq_of_alike here there owners parameters fun question _ =>
        rearranged.alike question

/-- The candidates are the same, but for their order and the numbers of scopes. -/
theorem candidates_perm (rearranged : Rearranged first second)
    : (first.candidates.map Candidate.unnumbered).Perm
        (second.candidates.map Candidate.unnumbered) := by
  obtain ⟨order, perm, pairs⟩ := rearranged.exists_corresponding
  have each : List.Forall₂ (· = ·) (first.candidates.map Candidate.unnumbered)
      ((order.map fun marked =>
          ⟨marked, second.ownerType? marked, second.parameterTypes? marked⟩).map
        Candidate.unnumbered) := by
    rw [candidates, List.forall₂_map_left_iff, List.forall₂_map_left_iff,
      List.forall₂_map_right_iff, List.forall₂_map_right_iff]
    refine pairs.imp fun marked other corresponds => ?_
    obtain ⟨owner, parameters⟩ := rearranged.types_eq corresponds
    simp only [Candidate.unnumbered, corresponds.declaration, owner, parameters]
  rw [List.forall₂_eq_eq_eq] at each
  rw [each, candidates]
  exact (perm.map _).map _

end Rearranged

-----------------------------------------------------------------------------------------
-- Public imports and the modules they stand in
-----------------------------------------------------------------------------------------

/-- The modules whose bodies have been scanned. -/
def homes (index : Index) : List String :=
  index.scopes.map Scope.home

/-- The later index has more bodies, and more public imports in them. -/
structure Houses (before after : Index) : Prop where
  homes : before.homes ⊆ after.homes
  reexports : ∀ reexport ∈ after.reexports, reexport ∈ before.reexports ∨ reexport.home ∈ after.homes

namespace Houses

variable {before middle after : Index}

/-- An index that keeps its modules and exports houses the latter. -/
theorem ofSame (homes : before.homes ⊆ after.homes) (reexports : after.reexports = before.reexports)
    : Houses before after :=
  ⟨homes, fun _ member => .inl (reexports ▸ member)⟩

/-- Nothing is exported by doing nothing. -/
theorem refl (index : Index) : Houses index index :=
  ofSame (List.Subset.refl _) rfl

/-- Housing composes: an export that was there before the second part is housed by the first. -/
theorem trans (first : Houses before middle) (second : Houses middle after)
    : Houses before after where
  homes := List.Subset.trans first.homes second.homes
  reexports found member := by
    rcases second.reexports found member with known | housed
    · exact (first.reexports found known).imp_right (second.homes ·)
    · exact .inr housed

/-- Exports of a module that is there are housed. -/
theorem reexport (index : Index) {home : String} (housed : home ∈ index.homes)
    (imports : List Import)
    : Houses index (index.reexport home imports) where
  homes := List.Subset.refl _
  reexports _ member := by
    rcases List.mem_append.mp member with known | added
    · exact .inl known
    · obtain ⟨_, _, rfl⟩ := List.mem_map.mp added
      exact .inr housed

/-- Marked declarations have no part in it. -/
theorem markOther (index : Index) (file : FilePath) (home : String) (scope : Nat) (what : String)
    (attributes : List Attribute) (name : String) (line : Nat)
    : Houses index (index.markOther file home scope what attributes name line) := by
  obtain ⟨marked, same⟩ := exists_markOther_eq index file home scope what attributes name line
  rw [same]
  exact ofSame (List.Subset.refl _) rfl

/-- Nor have the members of a block. -/
theorem addMembers (index : Index) (file : FilePath) (home : String) (scope : Nat)
    (block : ImplBlock) (members : List Member)
    : Houses index (members.foldl (addMember file home scope block) index) := by
  obtain ⟨marked, same⟩ := exists_addMembers_eq index file home scope block members
  rw [same]
  exact ofSame (List.Subset.refl _) rfl

end Houses

mutual

/-- What an item imports publicly stands in its module or in one that the item opens, by the cases of
the item; a module opens the scope of its body first.
-/
theorem houses_addItem (file : FilePath) {home : String} (scope : Nat) {index : Index}
    (housed : home ∈ index.homes) (item : Item)
    : Houses index (addItem file home scope index item) := by
  unfold addItem
  split
  · exact .refl index
  · cases item with
    | imports attributes exported rooted tree =>
        cases exported with
        | true => exact .reexport index housed _
        | false => exact .refl index
    | type attributes kind name line =>
        have declared : Houses index (index.declare home name) :=
          .ofSame (List.Subset.refl _) rfl
        exact declared.trans (.markOther (index.declare home name) ..)
    | trait attributes name line members =>
        have declared : Houses index (index.declare home name) :=
          .ofSame (List.Subset.refl _) rfl
        exact declared.trans (.markOther (index.declare home name) ..)
    | function attributes signature => exact .markOther index ..
    | submodule attributes name body =>
        have opened : Houses index
            ((index.registerModule (Segments.within home name)).openScope
              (Segments.within home name) body) :=
          .ofSame (by simp [homes, openScope, registerModule]) rfl
        exact opened.trans (houses_addItems file _ (by simp [homes, openScope, Scope.ofItems]) body)
    | fileModule attributes name => exact .ofSame (List.Subset.refl _) rfl
    | implementation attributes block => exact .addMembers index ..
    | other attributes => exact .refl index

/-- Items house their exports one after the other, in one induction with the bodies of submodules. -/
theorem houses_addItems (file : FilePath) {home : String} (scope : Nat) {index : Index}
    (housed : home ∈ index.homes) (items : List Item)
    : Houses index (addItems file home scope index items) := by
  cases items with
  | nil =>
      unfold addItems
      exact .refl index
  | cons item rest =>
      unfold addItems
      have first := houses_addItem file scope housed item
      exact first.trans (houses_addItems file scope (first.homes housed) rest)

end

/-- A file imports publicly in its own modules alone. -/
theorem home_of_reexport_ofSource {marker : String} {source : SourceFile} {reexport : Reexport}
    (member : reexport ∈ (ofSource marker source).reexports)
    : reexport.home ∈ (ofSource marker source).homes := by
  unfold ofSource at member ⊢
  split at member
  · rename_i items read
    let opened := (({ marker } : Index).registerModule source.home).openScope source.home items
    have housed : source.home ∈ opened.homes := by
      simp [opened, homes, openScope, Scope.ofItems]
    have houses := houses_addItems source.path
      (({ marker } : Index).registerModule source.home).scopes.length housed items
    rcases houses.reexports reexport member with known | housed
    · simp [opened, openScope, registerModule] at known
    · exact housed
  · simp at member

-----------------------------------------------------------------------------------------
-- Files in another order
-----------------------------------------------------------------------------------------

/-- The parts of an index of several ones, by induction on them. -/
theorem foldl_append_eq (base : Index) (added : List Index)
    : (added.foldl append base).marker = base.marker
      ∧ (added.foldl append base).scopes = base.scopes ++ added.flatMap Index.scopes
      ∧ (added.foldl append base).declared = base.declared ++ added.flatMap Index.declared
      ∧ (added.foldl append base).modules = base.modules ++ added.flatMap Index.modules
      ∧ (added.foldl append base).reexports = base.reexports ++ added.flatMap Index.reexports := by
  induction added generalizing base with
  | nil => simp
  | cons first rest ih =>
      obtain ⟨marker, scopes, declared, modules, reexports⟩ := ih (base.append first)
      simp only [List.foldl_cons, marker, scopes, declared, modules, reexports, List.flatMap_cons]
      simp only [append, List.append_assoc, and_self]

/-- Order makes no difference where no two parts have anything, by induction on the permutation. -/
theorem flatMap_eq_of_perm {α β : Type} {parts : α → List β} {items others : List α}
    (perm : items.Perm others)
    (apart : items.Pairwise fun first second => parts first = [] ∨ parts second = [])
    : others.flatMap parts = items.flatMap parts := by
  induction perm with
  | nil => rfl
  | cons item _ ih =>
      rw [List.flatMap_cons, List.flatMap_cons, ih (List.pairwise_cons.mp apart).2]
  | swap first second rest =>
      have none : parts second = [] ∨ parts first = [] :=
        (List.pairwise_cons.mp apart).1 first List.mem_cons_self
      rcases none with none | none <;> simp [none]
  | trans first _ ihFirst ihSecond =>
      have swaps {first second : α} (none : parts first = [] ∨ parts second = [])
          : parts second = [] ∨ parts first = [] :=
        none.symm
      rw [ihSecond ((first.pairwise_iff swaps).mp apart), ihFirst apart]

/-- What a file brings in is rearranged with the files, unless two of them import publicly in the same
module. Sets of names and of declarations do not depend on order; the public imports of one module do,
and all of them come from one file.
-/
theorem Rearranged.foldl_append {first second : Index} (rearranged : Rearranged first second)
    (wellScoped : first.WellScoped) (wellScopedSecond : second.WellScoped)
    {added others : List Index} (perm : added.Perm others)
    (wellScopedAdded : ∀ index ∈ added, index.WellScoped)
    (apart
      : ∀ home, added.Pairwise fun left right =>
          left.reexports.filter (·.home = home) = [] ∨ right.reexports.filter (·.home = home) = [])
    : Rearranged (added.foldl append first) (others.foldl append second) := by
  obtain ⟨marker, _, declared, modules, reexports⟩ := foldl_append_eq first added
  obtain ⟨markerSecond, _, declaredSecond, modulesSecond, reexportsSecond⟩ :=
    foldl_append_eq second others
  refine ⟨?_, fun name => ?_, fun name => ?_, fun home => ?_, ?_⟩
  · rw [marker, markerSecond, rearranged.marker]
  · rw [declared, declaredSecond, List.mem_append, List.mem_append, rearranged.declared,
      (perm.flatMap_right Index.declared).mem_iff]
  · rw [modules, modulesSecond, List.mem_append, List.mem_append, rearranged.modules,
      (perm.flatMap_right Index.modules).mem_iff]
  · rw [reexports, reexportsSecond, List.filter_append, List.filter_append, rearranged.reexports,
      List.filter_flatMap, List.filter_flatMap, flatMap_eq_of_perm perm (apart home)]
  · rw [(placed_foldl_append wellScoped wellScopedAdded).1,
      (placed_foldl_append wellScopedSecond fun index member =>
        wellScopedAdded index (perm.mem_iff.mpr member)).1]
    exact rearranged.placed.append (perm.flatMap_right _)

/-- Files in another order rearrange the index, where no module has two bodies. Two files with public
imports in one module would give that module two bodies.
-/
theorem rearranged_ofSources {marker : String} {sources others : List SourceFile}
    (readable : ∀ source ∈ sources, (Item.ofText? source.content).isSome = true)
    (perm : sources.Perm others) (distinct : (ofSources marker sources).homes.Nodup)
    : Rearranged (ofSources marker sources) (ofSources marker others) := by
  have readableOthers : ∀ source ∈ others, (Item.ofText? source.content).isSome = true :=
    fun source member => readable source (perm.mem_iff.mpr member)
  rw [ofSources_eq_foldl readable] at distinct ⊢
  rw [ofSources_eq_foldl readableOthers]
  refine (Rearranged.refl { marker }).foldl_append (by simp [WellScoped]) (by simp [WellScoped])
    (perm.map _) (List.forall_mem_map.mpr fun source _ => wellScoped_ofSource marker source) ?_
  intro home
  rw [homes, (foldl_append_eq _ _).2.1, List.flatMap_map, List.nil_append, List.map_flatMap,
    List.nodup_flatMap] at distinct
  rw [List.pairwise_map]
  refine distinct.2.imp fun {left right} disjoint => ?_
  -- A public import of each in one module would give that module two bodies.
  by_contra both
  simp only [List.filter_eq_nil_iff, decide_eq_true_eq, not_or, not_forall, not_not] at both
  obtain ⟨⟨first, member, here⟩, ⟨second, memberSecond, there⟩⟩ := both
  have housed := home_of_reexport_ofSource member
  have housedSecond := home_of_reexport_ofSource memberSecond
  rw [here] at housed
  rw [there] at housedSecond
  exact disjoint housed housedSecond

end Index

end Wiring
