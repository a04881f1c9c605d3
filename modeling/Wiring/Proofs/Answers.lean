import Mathlib.Data.List.Forall2
import Mathlib.Data.List.Induction

/-! Answers, and lists of items that have an answer each. Their answers stand beside them, in order. -/

namespace Wiring

/-- A success is what remains of a result without its faults. -/
theorem toOption_eq_some_iff {ε α : Type} {result : Except ε α} {value : α}
    : result.toOption = some value ↔ result = .ok value := by
  cases result <;> simp [Except.toOption]

/-- A result that has a value after its faults are forgotten is that success. This is how results are
evaluated whose faults cannot be compared.
-/
theorem eq_ok_of_toOption_eq_some {ε α : Type} {result : Except ε α} {value : α}
    (succeeds : result.toOption = some value)
    : result = .ok value :=
  toOption_eq_some_iff.mp succeeds

/-- A mapped success comes from a success. -/
theorem map_eq_ok_iff {ε α β : Type} {f : α → β} {result : Except ε α} {value : β}
    : result.map f = .ok value ↔ ∃ held, result = .ok held ∧ f held = value := by
  cases result <;> simp [Except.map]

/-- Mapping keeps faults. -/
theorem map_eq_error_iff {ε α β : Type} {f : α → β} {result : Except ε α} {fault : ε}
    : result.map f = .error fault ↔ result = .error fault := by
  cases result <;> simp [Except.map]

/-- Where all items have results, each result is that of its item, by induction on the items. -/
theorem forall₂_of_mapM_eq_some {α β : Type} {f : α → Option β} {items : List α}
    {results : List β} (found : items.mapM f = some results)
    : List.Forall₂ (fun item result => f item = some result) items results := by
  induction items generalizing results with
  | nil => simp_all
  | cons item items ih =>
      simp only [List.mapM_cons, Option.pure_def, Option.bind_eq_bind, Option.bind_eq_some_iff,
        Option.some.injEq] at found
      obtain ⟨result, first, others, rest, rfl⟩ := found
      exact .cons first (ih rest)

/-- Answers to all of a list, from an answer to each. -/
theorem exists_mapM_eq_some {α β : Type} {answer? : α → Option β} {items : List α}
    (each : ∀ item ∈ items, ∃ answer, answer? item = some answer)
    : ∃ answers, items.mapM answer? = some answers := by
  induction items with
  | nil => exact ⟨[], rfl⟩
  | cons item items ih =>
      obtain ⟨⟨answer, here⟩, later⟩ := List.forall_mem_cons.mp each
      obtain ⟨answers, rest⟩ := ih later
      exact ⟨answer :: answers, by simp [here, rest]⟩

/-- Items that all have an answer. -/
theorem eq_filterMap_of_forall₂ {α β : Type} {f : α → Option β} {items : List α} {results : List β}
    (pairs : List.Forall₂ (fun item result => f item = some result) items results)
    : results = items.filterMap f := by
  induction pairs with
  | nil => rfl
  | cons first _ ih => rw [List.filterMap_cons_some first, ih]

/-- The items that have an answer stand beside their answers, by induction on the items: one without an
answer is missing on both sides.
-/
theorem forall₂_filterMap {α β : Type} {answer? : α → Option β} {related : α → β → Prop}
    {items : List α}
    (answers : ∀ item ∈ items, ∀ answer, answer? item = some answer → related item answer)
    : List.Forall₂ related (items.filter fun item => (answer? item).isSome)
        (items.filterMap answer?) := by
  induction items with
  | nil => exact .nil
  | cons item rest ih =>
      have others := ih fun later member => answers later (List.mem_cons_of_mem item member)
      cases found : answer? item with
      | none =>
          rw [List.filter_cons_of_neg (by simp [found]), List.filterMap_cons_none found]
          exact others
      | some answer =>
          rw [List.filter_cons_of_pos (by simp [found]), List.filterMap_cons_some found]
          exact .cons (answers item (by simp) answer found) others

/-- The answers to the items come from ascending positions: from all that have one, by induction from
the end of the items, where one more item adds one more position.
-/
theorem exists_positions {α β : Type} (answer? : α → Option β) (items : List α)
    : ∃ positions : List Nat,
        positions.Pairwise (· < ·)
        ∧ (∀ position,
            position ∈ positions ↔ ∃ answer, items[position]?.bind answer? = some answer)
        ∧ List.Forall₂ (fun position answer => items[position]?.bind answer? = some answer)
            positions (items.filterMap answer?) := by
  have same
      : items.filterMap answer?
        = (List.range items.length).filterMap fun position => items[position]?.bind answer? := by
    induction items using List.reverseRecOn with
    | nil => rfl
    | append_singleton items last ih =>
        rw [List.filterMap_append, List.length_append, List.length_singleton, List.range_succ,
          List.filterMap_append, ih]
        refine congr (congrArg HAppend.hAppend ?_) ?_
        · refine List.filterMap_congr fun position inside => ?_
          rw [List.getElem?_append_left (List.mem_range.mp inside)]
        · simp [List.filterMap_cons]
  refine ⟨(List.range items.length).filter fun position => (items[position]?.bind answer?).isSome,
    List.pairwise_lt_range.filter _, fun position => ?_, ?_⟩
  · rw [List.mem_filter, List.mem_range, Option.isSome_iff_exists, and_iff_right_iff_imp]
    rintro ⟨answer, found⟩
    by_contra outside
    rw [List.getElem?_eq_none (Nat.not_lt.mp outside)] at found
    contradiction
  · rw [same]
    exact forall₂_filterMap fun _ _ _ found => found

/-- Each member of a paired list has its partner, by induction on the pairs. -/
theorem exists_of_forall₂ {α β : Type} {related : α → β → Prop} {items : List α} {answers : List β}
    (pairs : List.Forall₂ related items answers) {item : α} (member : item ∈ items)
    : ∃ answer ∈ answers, related item answer := by
  induction pairs with
  | nil => simp at member
  | @cons _ answer _ _ first _ ih =>
      rcases List.mem_cons.mp member with rfl | member
      · exact ⟨answer, by simp, first⟩
      · obtain ⟨later, found, same⟩ := ih member
        exact ⟨later, List.mem_cons_of_mem answer found, same⟩

end Wiring
