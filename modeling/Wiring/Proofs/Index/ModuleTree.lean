import Wiring.Proofs.Index.CrateInternal
import Wiring.Proofs.Index.Placement

/-! The tree of modules. In an index of source files, all lies in modules of the index: the modules
themselves, except for their roots, the declarations and the public imports. So no path leads to what lies
below a name that is no module.
-/

namespace Wiring

open Source Segments

namespace Index

-----------------------------------------------------------------------------------------
-- Modules and those around them
-----------------------------------------------------------------------------------------

/-- A module is in its own lineage. -/
theorem mem_lineage_self (fuel : Nat) (home : String)
    : home ∈ lineage fuel home := by
  cases fuel with
  | zero => exact List.mem_singleton_self home
  | succ fuel =>
      unfold lineage
      split
      · exact List.mem_cons_self
      · exact List.mem_singleton_self home

/-- A module is named with more characters than the one that it lies in. -/
theorem length_lt_of_splitLast? {inner outer name : String}
    (parts : splitLast? inner = some (outer, name))
    : outer.length < inner.length := by
  have same : inner = outer ++ "::" ++ name := eq_within_of_splitLast? parts
  have separator : "::".length = 2 := rfl
  rw [same, String.length_append, String.length_append, separator]
  omega

/-- The fuel of a lineage reaches all modules, by induction on it. -/
theorem outer_mem_lineage {fuel : Nat} {home inner outer name : String}
    (enough : home.length ≤ fuel) (member : inner ∈ lineage fuel home)
    (parts : splitLast? inner = some (outer, name))
    : outer ∈ lineage fuel home := by
  induction fuel generalizing home with
  | zero =>
      obtain rfl := List.mem_singleton.mp member
      have shorter := length_lt_of_splitLast? parts
      omega
  | succ fuel ih =>
      unfold lineage at member ⊢
      split at member
      · rename_i above last split
        rcases List.mem_cons.mp member with rfl | member
        · obtain ⟨rfl, _⟩ := Prod.mk.inj (Option.some.inj (split.symm.trans parts))
          exact List.mem_cons_of_mem _ (mem_lineage_self fuel above)
        · have shorter := length_lt_of_splitLast? split
          exact List.mem_cons_of_mem _ (ih (by omega) member)
      · rename_i single
        obtain rfl := List.mem_singleton.mp member
        rw [single] at parts
        contradiction

-----------------------------------------------------------------------------------------
-- What lies in modules
-----------------------------------------------------------------------------------------

/-- Whether all that is named in an index lies in modules of the index. -/
structure Modular (index : Index) : Prop where
  modules
    : ∀ inner ∈ index.modules, ∀ outer name,
        splitLast? inner = some (outer, name) → outer ∈ index.modules
  declared
    : ∀ text ∈ index.declared, ∀ home name,
        splitLast? text = some (home, name) → home ∈ index.modules
  reexports : ∀ reexport ∈ index.reexports, reexport.home ∈ index.modules

/-- The later index has more modules, and all lies in modules if it does in the earlier one. -/
structure Extends (before after : Index) : Prop where
  modules : before.modules ⊆ after.modules
  modular : before.Modular → after.Modular

namespace Extends

variable {before middle after : Index}

/-- Scopes and marked declarations make no difference. -/
theorem ofSame (modules : after.modules = before.modules) (declared : after.declared = before.declared)
    (reexports : after.reexports = before.reexports)
    : Extends before after where
  modules := by
    rw [modules]
    exact List.Subset.refl _
  modular modular := by
    obtain ⟨inModules, inDeclared, inReexports⟩ := modular
    refine ⟨?_, ?_, ?_⟩
    · rwa [modules]
    · rwa [modules, declared]
    · rwa [modules, reexports]

/-- An index extends itself. -/
theorem refl (index : Index) : Extends index index :=
  ofSame rfl rfl rfl

/-- Extensions compose: modules stay, and what is modular stays so. -/
theorem trans (first : Extends before middle) (second : Extends middle after)
    : Extends before after :=
  ⟨List.Subset.trans first.modules second.modules, fun modular => second.modular (first.modular modular)⟩

/-- Registering a module adds it with all modules above it, so that what is in it stands in a module. -/
theorem registerModule (index : Index) (home : String)
    : Extends index (index.registerModule home) where
  modules := List.subset_append_left _ _
  modular modular := by
    refine ⟨fun inner member outer name parts => ?_, fun text member outer name parts => ?_,
      fun reexport member => ?_⟩
    · rcases List.mem_append.mp member with known | added
      · exact List.mem_append_left _ (modular.modules inner known outer name parts)
      · exact List.mem_append_right _ (outer_mem_lineage (Nat.le_refl _) added parts)
    · exact List.mem_append_left _ (modular.declared text member outer name parts)
    · exact List.mem_append_left _ (modular.reexports reexport member)

/-- Scopes have no part in it. -/
theorem openScope (index : Index) (home : String) (items : List Item)
    : Extends index (index.openScope home items) :=
  ofSame rfl rfl rfl

/-- A declaration in a module that is there keeps the index modular. -/
theorem declare (index : Index) {home name : String} (present : home ∈ index.modules)
    (token : Identifier.isToken name = true)
    : Extends index (index.declare home name) where
  modules := List.Subset.refl _
  modular modular := by
    refine ⟨modular.modules, fun text member outer last parts => ?_, modular.reexports⟩
    rcases List.mem_append.mp member with known | added
    · exact modular.declared text known outer last parts
    · obtain rfl := List.mem_singleton.mp added
      rw [splitLast?_within home (isSingle_of_isToken token)] at parts
      obtain ⟨rfl, _⟩ := Prod.mk.inj (Option.some.inj parts)
      exact present

/-- So do exports of one. -/
theorem reexport (index : Index) {home : String} (present : home ∈ index.modules)
    (imports : List Import)
    : Extends index (index.reexport home imports) where
  modules := List.Subset.refl _
  modular modular := by
    refine ⟨modular.modules, modular.declared, fun reexport member => ?_⟩
    rcases List.mem_append.mp member with known | added
    · exact modular.reexports reexport known
    · obtain ⟨_, _, rfl⟩ := List.mem_map.mp added
      exact present

/-- Marked declarations have no part in it. -/
theorem markOther (index : Index) (file : FilePath) (home : String) (scope : Nat) (what : String)
    (attributes : List Attribute) (name : String) (line : Nat)
    : Extends index (index.markOther file home scope what attributes name line) := by
  obtain ⟨marked, same⟩ := exists_markOther_eq index file home scope what attributes name line
  rw [same]
  exact ofSame rfl rfl rfl

/-- Nor have the members of a block, which only mark. -/
theorem addMembers (index : Index) (file : FilePath) (home : String) (scope : Nat)
    (block : ImplBlock) (members : List Member)
    : Extends index (members.foldl (addMember file home scope block) index) := by
  obtain ⟨marked, same⟩ := exists_addMembers_eq index file home scope block members
  rw [same]
  exact ofSame rfl rfl rfl

end Extends

mutual

/-- An item that stands in a module of the index brings in nothing outside modules, by the cases of the
item; a module is registered before its body is added.
-/
theorem extends_addItem (file : FilePath) {home : String} (scope : Nat) {index : Index}
    (present : home ∈ index.modules) (item : Item) (named : item.Named)
    : Extends index (addItem file home scope index item) := by
  unfold addItem
  split
  · exact .refl index
  · cases item with
    | imports attributes exported rooted tree =>
        cases exported with
        | true => exact .reexport index present _
        | false => exact .refl index
    | type attributes kind name line =>
        exact (Extends.declare index present named).trans (.markOther (index.declare home name) ..)
    | trait attributes name line members =>
        exact (Extends.declare index present named).trans (.markOther (index.declare home name) ..)
    | function attributes signature => exact .markOther index ..
    | submodule attributes name body =>
        let inner := within home name
        have opened : Extends index ((index.registerModule inner).openScope inner body) :=
          (Extends.registerModule index inner).trans (.openScope _ inner body)
        have inside : inner ∈ ((index.registerModule inner).openScope inner body).modules :=
          List.mem_append_right _ (mem_lineage_self _ inner)
        exact opened.trans (extends_addItems file _ inside body named.2)
    | fileModule attributes name => exact .registerModule index _
    | implementation attributes block => exact .addMembers index ..
    | other attributes => exact .refl index

/-- Items extend the index one after the other, in one induction with the bodies of submodules, whose
modules are registered first.
-/
theorem extends_addItems (file : FilePath) {home : String} (scope : Nat) {index : Index}
    (present : home ∈ index.modules) (items : List Item) (named : Item.AllNamed items)
    : Extends index (addItems file home scope index items) := by
  cases items with
  | nil =>
      unfold addItems
      exact .refl index
  | cons item rest =>
      unfold addItems
      have first := extends_addItem file scope present item named.1
      exact first.trans (extends_addItems file scope (first.modules present) rest named.2)

end

/-- A file brings in the modules that it lies in, so that what it holds lies in modules. -/
theorem extends_take (index : Index) (source : SourceFile)
    : Extends index (index.take source).state := by
  unfold take
  split
  · rename_i after added
    unfold add at added
    split at added
    · rename_i items read
      obtain rfl := Except.ok.inj added
      let opened := (index.registerModule source.home).openScope source.home items
      have present : source.home ∈ opened.modules :=
        List.mem_append_right _ (mem_lineage_self _ source.home)
      have first : Extends index opened :=
        (Extends.registerModule index source.home).trans (.openScope _ source.home items)
      have full := extends_addItems source.path (index.registerModule source.home).scopes.length
        present items (Item.allNamed_of_ofText? read)
      exact (first.trans full).trans (.ofSame rfl rfl rfl)
    · contradiction
  · exact .refl index

/-- All that files bring in lies in modules, by induction on the files. -/
theorem modular_ofAdditions (marker : String) (sources : List SourceFile)
    : (ofAdditions marker sources).Modular :=
  List.foldlRecOn sources _ ⟨by simp, by simp, by simp⟩
    fun index modular source _ => (extends_take index source).modular modular

-----------------------------------------------------------------------------------------
-- Paths below a name
-----------------------------------------------------------------------------------------

variable {index : Index}

/-- A glob that is exported comes from an export of the module. -/
theorem exists_reexport_of_glob {home : String} {glob : SpelledPath}
    (found : glob ∈ index.reexportedGlobs home)
    : ∃ reexport ∈ index.reexports, reexport.home = home := by
  obtain ⟨reexport, among, _⟩ := List.mem_filterMap.mp found
  obtain ⟨present, here⟩ := List.mem_filter.mp among
  exact ⟨reexport, present, of_decide_eq_true here⟩

namespace Modular

/-- Public imports are followed in modules alone. -/
theorem home_of_hop (modular : index.Modular) {home name target : String} (single : IsSingle name)
    (hop : index.Hop (within home name) target)
    : home ∈ index.modules := by
  have here {outer last : String} (parts : splitLast? (within home name) = some (outer, last))
      : outer = home := by
    rw [splitLast?_within home single] at parts
    exact (Prod.mk.inj (Option.some.inj parts)).1.symm
  rcases hop with ⟨outer, last, written, parts, found, _⟩ | ⟨outer, last, glob, _, parts, _, found, _⟩
  · obtain ⟨reexport, present, rfl, _⟩ := exists_reexport_of_named found
    rw [← here parts]
    exact modular.reexports reexport present
  · obtain ⟨reexport, present, rfl⟩ := exists_reexport_of_glob found
    rw [← here parts]
    exact modular.reexports reexport present

/-- Whatever leads to a type lies in a module. -/
theorem home_of_declaration? (modular : index.Modular) {home name : String} (single : IsSingle name)
    {hops : Nat} {last : String} (found : index.declaration? hops (within home name) = some last)
    : home ∈ index.modules := by
  have ofDeclared (declared : index.declares (within home name) = true) : home ∈ index.modules := by
    rw [declares, List.contains_iff_mem] at declared
    exact modular.declared _ declared home name (splitLast?_within home single)
  cases hops with
  | zero =>
      unfold declaration? at found
      split at found
      · rename_i declared
        exact ofDeclared declared
      · contradiction
  | succ hops =>
      rcases declaration?_succ_eq_some found with
        ⟨declared, _⟩ | ⟨_, ⟨_, hop⟩ | ⟨next, _, hop, _⟩⟩
      · exact ofDeclared declared
      · exact modular.home_of_hop single (.inl hop)
      · exact modular.home_of_hop single hop

/-- A module inside others makes modules of all of them, by induction on the segments in between. -/
theorem of_join (modular : index.Modular) {home : String} {below : List String}
    (tokens : ∀ segment ∈ below, Identifier.isToken segment = true)
    (present : join (home :: below) ∈ index.modules)
    : home ∈ index.modules := by
  induction below generalizing home with
  | nil => exact present
  | cons name rest ih =>
      obtain ⟨token, others⟩ := List.forall_mem_cons.mp tokens
      rw [join_cons_cons] at present
      exact modular.modules _ (ih others present) home name
        (splitLast?_within home (isSingle_of_isToken token))

/-- No path leads below a name that is no module. -/
theorem declaration?_below (modular : index.Modular) {home : String} (missing : home ∉ index.modules)
    {below : List String} (some : below ≠ [])
    (tokens : ∀ segment ∈ below, Identifier.isToken segment = true) (hops : Nat)
    : index.declaration? hops (join (home :: below)) = none := by
  apply Option.eq_none_iff_forall_ne_some.mpr
  intro last found
  obtain ⟨outer, name, rfl⟩ : ∃ outer name, below = outer ++ [name] :=
    ⟨_, _, (List.dropLast_append_getLast some).symm⟩
  obtain ⟨outerTokens, token⟩ := List.forall_mem_append.mp tokens
  rw [← List.cons_append, join_append_singleton (List.cons_ne_nil _ _)] at found
  have single : IsSingle name := isSingle_of_isToken (token name (List.mem_singleton_self name))
  exact missing (modular.of_join outerTokens (modular.home_of_declaration? single found))

end Modular

end Index

end Wiring
