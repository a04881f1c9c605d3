import Mathlib.Data.List.Induction
import Mathlib.Data.List.Nodup
import Mathlib.Order.Defs.Unbundled
import Wiring.Blueprint
import Wiring.Catalog

/-! Lists that ascend by a key. Catalogs, collected injectables and listings of types are all kept so
by one way of inserting, of which they are cases: an item stands where its key belongs, in place of
one that had the same key.
-/

namespace Wiring

namespace Ascending

variable {α κ : Type} [LT κ] [DecidableEq κ] [DecidableLT κ]

/-- Adds an item to a list that ascends by key, in place of one with the same key. -/
def insertBy (key : α → κ) (item : α) : List α → List α
  | [] => [item]
  | first :: rest =>
      if key item = key first then item :: rest
      else if key item < key first then item :: first :: rest
      else first :: insertBy key item rest

/-- Items that are inserted one after the other. -/
def collectBy (key : α → κ) (items : List α) : List α :=
  items.foldl (fun collected item => insertBy key item collected) []

variable {key : α → κ}

/-- One more item is one more insertion. -/
theorem collectBy_append_singleton (items : List α) (item : α)
    : collectBy key (items ++ [item]) = insertBy key item (collectBy key items) := by
  simp [collectBy]

/-- An item under a new key is added to all others. -/
theorem insertBy_perm {item : α} {items : List α} (fresh : ∀ other ∈ items, key other ≠ key item)
    : (insertBy key item items).Perm (item :: items) := by
  induction items with
  | nil => exact .refl [item]
  | cons first rest ih =>
      rw [insertBy, if_neg (fresh first (by simp)).symm]
      split
      · exact .refl _
      · have inserted := ih fun other member => fresh other (List.mem_cons_of_mem first member)
        exact (inserted.cons first).trans (.swap item first rest)

variable [IsStrictTotalOrder κ (· < ·)]

/-- What an insertion leaves: the item, and whatever has another key. -/
theorem mem_insertBy {item other : α} {items : List α}
    (ascending : items.Pairwise (key · < key ·))
    : other ∈ insertBy key item items ↔ other = item ∨ other ∈ items ∧ key other ≠ key item := by
  induction items with
  | nil => simp [insertBy]
  | cons first rest ih =>
      obtain ⟨above, ascending⟩ := List.pairwise_cons.mp ascending
      unfold insertBy
      split
      · rename_i same
        have apart : ∀ later ∈ rest, key later ≠ key item := by
          intro later member equal
          exact ne_of_irrefl (above later member) (same.symm.trans equal.symm)
        simp only [List.mem_cons]
        constructor
        · rintro (here | member)
          · exact .inl here
          · exact .inr ⟨.inr member, apart other member⟩
        · rintro (here | ⟨rfl | member, differs⟩)
          · exact .inl here
          · exact absurd same.symm differs
          · exact .inr member
      · split
        · rename_i differs before
          have apart : ∀ later ∈ first :: rest, key later ≠ key item := by
            intro later member equal
            rcases List.mem_cons.mp member with rfl | member
            · exact differs equal.symm
            · exact irrefl_of (· < ·) _ (trans_of (· < ·) before (equal ▸ above later member))
          rw [List.mem_cons]
          constructor
          · rintro (here | member)
            · exact .inl here
            · exact .inr ⟨member, apart other member⟩
          · rintro (here | ⟨member, _⟩)
            · exact .inl here
            · exact .inr member
        · rename_i differs _
          rw [List.mem_cons, ih ascending, List.mem_cons]
          constructor
          · rintro (rfl | here | ⟨member, apart⟩)
            · exact .inr ⟨.inl rfl, Ne.symm differs⟩
            · exact .inl here
            · exact .inr ⟨.inr member, apart⟩
          · rintro (here | ⟨rfl | member, apart⟩)
            · exact .inr (.inl here)
            · exact .inl rfl
            · exact .inr (.inr ⟨member, apart⟩)

/-- An insertion keeps the order. -/
theorem pairwise_insertBy (item : α) {items : List α} (ascending : items.Pairwise (key · < key ·))
    : (insertBy key item items).Pairwise (key · < key ·) := by
  induction items with
  | nil => simp [insertBy]
  | cons first rest ih =>
      obtain ⟨above, below⟩ := List.pairwise_cons.mp ascending
      unfold insertBy
      split
      · rename_i same
        exact List.pairwise_cons.mpr ⟨fun later member => same ▸ above later member, below⟩
      · split
        · rename_i before
          refine List.pairwise_cons.mpr ⟨?_, ascending⟩
          intro later member
          rcases List.mem_cons.mp member with rfl | member
          · exact before
          · exact trans_of (· < ·) before (above later member)
        · rename_i differs after
          refine List.pairwise_cons.mpr ⟨?_, ih below⟩
          intro later member
          rcases (mem_insertBy below).mp member with rfl | ⟨member, _⟩
          · exact ((trichotomous_of (· < ·) (key later) (key first)).resolve_left after).resolve_left
              differs
          · exact above later member

/-- Items under different keys may be inserted in either order. -/
theorem insertBy_comm {first second : α} (apart : key first ≠ key second) (items : List α)
    : insertBy key first (insertBy key second items)
      = insertBy key second (insertBy key first items) := by
  have order := trichotomous_of (· < ·) (key first) (key second)
  have asymm {left right : κ} : left < right → ¬ right < left := asymm_of (· < ·)
  have trans {left middle right : κ} : left < middle → middle < right → left < right :=
    trans_of (· < ·)
  induction items with
  | nil => grind [insertBy]
  | cons head rest ih =>
      have orderFirst := trichotomous_of (· < ·) (key first) (key head)
      have orderSecond := trichotomous_of (· < ·) (key second) (key head)
      grind [insertBy]

/-- Items under keys of their own may be inserted in any order. -/
theorem foldl_insertBy_perm {items others : List α} (perm : items.Perm others)
    (distinct : (items.map key).Nodup) (kept : List α)
    : others.foldl (fun kept item => insertBy key item kept) kept
      = items.foldl (fun kept item => insertBy key item kept) kept := by
  refine (perm.foldl_eq' (fun first member second memberSecond kept => ?_) kept).symm
  by_cases same : key first = key second
  · rw [List.inj_on_of_nodup_map distinct member memberSecond same]
  · exact insertBy_comm (Ne.symm same) kept

/-- Items that were collected ascend by key, by induction from the last one. -/
theorem pairwise_collectBy (items : List α)
    : (collectBy key items).Pairwise (key · < key ·) := by
  induction items using List.reverseRecOn with
  | nil => exact .nil
  | append_singleton items item ih =>
      rw [collectBy_append_singleton]
      exact pairwise_insertBy item ih

/-- Of items with one key the last is kept, by induction from the last one. -/
theorem mem_collectBy {items : List α} {item : α}
    : item ∈ collectBy key items
      ↔ ∃ front back,
          items = front ++ item :: back ∧ ∀ later ∈ back, key later ≠ key item := by
  induction items using List.reverseRecOn with
  | nil => simp [collectBy]
  | append_singleton items last ih =>
      rw [collectBy_append_singleton, mem_insertBy (pairwise_collectBy items), ih]
      constructor
      · rintro (rfl | ⟨⟨front, back, rfl, apart⟩, differs⟩)
        · exact ⟨items, [], rfl, by simp⟩
        · refine ⟨front, back ++ [last], by simp, ?_⟩
          intro later member
          rcases List.mem_append.mp member with member | member
          · exact apart later member
          · rw [List.mem_singleton.mp member]
            exact differs.symm
      · rintro ⟨front, back, split, apart⟩
        rcases List.eq_nil_or_concat back with rfl | ⟨middle, final, rfl⟩
        · exact .inl (List.append_singleton_inj.mp split).2.symm
        · have same : items = front ++ item :: middle ∧ last = final := by
            apply List.append_singleton_inj.mp
            simpa using split
          obtain ⟨rfl, rfl⟩ := same
          refine .inr ⟨⟨front, middle, rfl, ?_⟩, (apart last (by simp)).symm⟩
          intro later member
          exact apart later (by simp [member])

/-- Items whose keys all differ are all kept. -/
theorem mem_collectBy_of_nodup {items : List α} (distinct : (items.map key).Nodup) {item : α}
    : item ∈ collectBy key items ↔ item ∈ items := by
  rw [mem_collectBy]
  constructor
  · rintro ⟨front, back, rfl, _⟩
    simp
  · intro member
    obtain ⟨front, back, rfl⟩ := List.append_of_mem member
    refine ⟨front, back, rfl, ?_⟩
    intro later inBack same
    rw [List.map_append, List.map_cons] at distinct
    have apart := (List.nodup_cons.mp (List.nodup_append.mp distinct).2.1).1
    exact apart (List.mem_map.mpr ⟨later, inBack, same⟩)

/-- Every key is kept, by induction from the last item. -/
theorem exists_mem_collectBy {items : List α} {sought : κ}
    : (∃ item ∈ collectBy key items, key item = sought) ↔ ∃ item ∈ items, key item = sought := by
  induction items using List.reverseRecOn with
  | nil => simp [collectBy]
  | append_singleton items last ih =>
      rw [collectBy_append_singleton]
      constructor
      · rintro ⟨item, member, same⟩
        rcases (mem_insertBy (pairwise_collectBy items)).mp member with rfl | ⟨member, _⟩
        · exact ⟨item, by simp, same⟩
        · obtain ⟨other, member, equal⟩ := ih.mp ⟨item, member, same⟩
          exact ⟨other, List.mem_append_left _ member, equal⟩
      · rintro ⟨item, member, same⟩
        by_cases here : key last = sought
        · exact ⟨last, (mem_insertBy (pairwise_collectBy items)).mpr (.inl rfl), here⟩
        · have earlier : item ∈ items := by
            rcases List.mem_append.mp member with member | member
            · exact member
            · exact absurd (List.mem_singleton.mp member ▸ same) here
          obtain ⟨other, member, equal⟩ := ih.mpr ⟨item, earlier, same⟩
          have apart : key other ≠ key last := fun clash => here (clash ▸ equal)
          exact ⟨other, (mem_insertBy (pairwise_collectBy items)).mpr (.inr ⟨member, apart⟩), equal⟩

/-- An item whose key comes after all others goes to the end. -/
theorem insertBy_of_forall_lt {item : α} {items : List α}
    (last : ∀ other ∈ items, key other < key item)
    : insertBy key item items = items ++ [item] := by
  induction items with
  | nil => rfl
  | cons first rest ih =>
      have above := last first (by simp)
      have differs : key item ≠ key first := fun same => irrefl_of (· < ·) _ (same ▸ above)
      have after : ¬ key item < key first := asymm_of (· < ·) above
      rw [insertBy, if_neg differs, if_neg after,
        ih (fun other member => last other (List.mem_cons_of_mem first member))]
      rfl

/-- Items that ascend already are collected as they are, by induction from the last one. -/
theorem collectBy_of_pairwise {items : List α} (ascending : items.Pairwise (key · < key ·))
    : collectBy key items = items := by
  induction items using List.reverseRecOn with
  | nil => rfl
  | append_singleton items item ih =>
      obtain ⟨below, _, last⟩ := List.pairwise_append.mp ascending
      rw [collectBy_append_singleton, ih below, insertBy_of_forall_lt]
      intro other member
      exact last other member item (by simp)

omit [DecidableEq κ] [DecidableLT κ] in
/-- Keys that ascend all differ. -/
theorem nodup_map {items : List α} (ascending : items.Pairwise (key · < key ·))
    : (items.map key).Nodup :=
  List.pairwise_map.mpr (ascending.imp fun {left right} below =>
    (ne_of_irrefl below : key left ≠ key right))

omit [DecidableLT κ] in
/-- Where keys ascend, an entry is found under its key. -/
theorem lookup_eq_some_iff {entries : List (κ × α)}
    (ascending : entries.Pairwise (·.1 < ·.1)) {sought : κ} {value : α}
    : entries.lookup sought = some value ↔ (sought, value) ∈ entries := by
  induction entries with
  | nil => simp
  | cons entry rest ih =>
      obtain ⟨name, held⟩ := entry
      obtain ⟨above, ascending⟩ := List.pairwise_cons.mp ascending
      rw [List.lookup_cons, List.mem_cons]
      by_cases same : sought = name
      · subst same
        have absent : (sought, value) ∉ rest := by
          intro member
          exact irrefl_of (· < ·) sought (above (sought, value) member)
        simp [absent, eq_comm]
      · have differs : (sought == name) = false := by simpa using same
        simp [differs, ih ascending, same]

end Ascending

/-! The orders of names, and the lists that are kept in them. -/

instance String.isStrictTotalOrder : IsStrictTotalOrder String (· < ·) where
  irrefl := String.lt_irrefl
  trans _ _ _ := String.lt_trans
  trichotomous _ _ left right :=
    String.le_antisymm (String.not_lt.mp right) (String.not_lt.mp left)

/-- Modules are compared first, and names only in one module. -/
theorem TypeName.lt_iff {left right : TypeName}
    : left < right
      ↔ left.home < right.home ∨ left.home = right.home ∧ left.name < right.name := by
  change left.before right = true ↔ _
  simp [TypeName.before]

instance TypeName.isStrictTotalOrder : IsStrictTotalOrder TypeName (· < ·) where
  irrefl type below := by
    rcases TypeName.lt_iff.mp below with less | ⟨_, less⟩
    · exact String.lt_irrefl _ less
    · exact String.lt_irrefl _ less
  trans left middle right first second := by
    rw [TypeName.lt_iff] at first second ⊢
    rcases first with less | ⟨same, less⟩ <;> rcases second with more | ⟨equal, more⟩
    · exact .inl (String.lt_trans less more)
    · exact .inl (equal ▸ less)
    · exact .inl (same ▸ more)
    · exact .inr ⟨same.trans equal, String.lt_trans less more⟩
  trichotomous left right below above := by
    simp only [TypeName.lt_iff, not_or, not_and] at below above
    have homes : left.home = right.home :=
      String.le_antisymm (String.not_lt.mp above.1) (String.not_lt.mp below.1)
    have names : left.name = right.name :=
      String.le_antisymm (String.not_lt.mp (above.2 homes.symm)) (String.not_lt.mp (below.2 homes))
    cases left
    cases right
    simp_all

/-- Any two types are ordered one way, or are the same. -/
theorem TypeName.lt_trichotomy (left right : TypeName)
    : left < right ∨ left = right ∨ right < left :=
  trichotomous_of (fun left right : TypeName => left < right) left right

/-- A catalog inserts by name. -/
theorem Catalog.insertInto_eq_insertBy {α : Type} (name : String) (value : α)
    (entries : List (String × α))
    : Catalog.insertInto name value entries = Ascending.insertBy Prod.fst (name, value) entries := by
  fun_induction Catalog.insertInto name value entries <;>
    simp only [Ascending.insertBy, ↓reduceIte, *]

/-- A catalog of entries that ascend by name has just these entries. -/
theorem Catalog.ofList_of_pairwise {α : Type} {entries : List (String × α)}
    (ascending : entries.Pairwise (·.1 < ·.1))
    : Catalog.ofList entries = ⟨entries⟩ := by
  have collected (catalog : Catalog α) (entries : List (String × α))
      : (entries.foldl (fun catalog entry => catalog.insert entry.1 entry.2) catalog).entries
        = entries.foldl (fun kept entry => Ascending.insertBy Prod.fst entry kept)
            catalog.entries := by
    induction entries generalizing catalog with
    | nil => rfl
    | cons entry rest ih =>
        rw [List.foldl_cons, ih]
        simp only [Catalog.insert, Catalog.insertInto_eq_insertBy, List.foldl_cons]
  have same := (collected {} entries).trans (Ascending.collectBy_of_pairwise ascending)
  exact congrArg Catalog.mk same

/-- Descriptors are inserted by their targets. -/
theorem Injectable.insertInto_eq_insertBy (injectable : Injectable) (collected : List Injectable)
    : injectable.insertInto collected
      = Ascending.insertBy Injectable.target injectable collected := by
  fun_induction Injectable.insertInto injectable collected <;>
    simp only [Ascending.insertBy, ↓reduceIte, *]

/-- Types are inserted by themselves. -/
theorem Blueprint.insertType_eq_insertBy (type : TypeName) (types : List TypeName)
    : Blueprint.insertType type types = Ascending.insertBy id type types := by
  fun_induction Blueprint.insertType type types <;>
    simp only [Ascending.insertBy, id, ↓reduceIte, *]

end Wiring
