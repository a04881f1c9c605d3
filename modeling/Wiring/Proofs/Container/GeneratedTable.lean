import Wiring.Emission.Component
import Wiring.Proofs.Blueprint.CycleSearch
import Wiring.Proofs.Container.Depth

/-! Containers over the table of a generated component. It has one row for each injectable, from its
target to its parameters; the static analysis of the injectables foretells what resolving will do.
-/

namespace Wiring

/-- The types that injectables speak of, as targets or as parameters. -/
def Injectable.mentioned (injectables : List Injectable) : List TypeName :=
  injectables.flatMap fun injectable => injectable.target :: injectable.parameters

/-- Types that the injectables tell apart by name have keys of their own at run time. -/
def TypeKey.TellsApart (keyOf : TypeName → TypeKey) (injectables : List Injectable) : Prop :=
  ∀ left ∈ Injectable.mentioned injectables,
    ∀ right ∈ Injectable.mentioned injectables, keyOf left = keyOf right → left = right

instance (keyOf : TypeName → TypeKey) (injectables : List Injectable)
    : Decidable (TypeKey.TellsApart keyOf injectables) :=
  inferInstanceAs (Decidable (∀ left ∈ _, ∀ right ∈ _, _ = _ → _ = _))

/-- The row of an injectable. -/
def Recipe.ofInjectable (keyOf : TypeName → TypeKey) (injectable : Injectable) : Recipe :=
  { key := keyOf injectable.target, parameters := injectable.parameters.map keyOf }

namespace Container

/-- A container over the table of the component that is generated for the injectables. -/
def generated (keyOf : TypeName → TypeKey) (injectables : List Injectable) (bindings : Bindings)
    : Container :=
  ⟨(Emission.inRowOrder injectables).map (Recipe.ofInjectable keyOf), bindings⟩

variable {keyOf : TypeName → TypeKey} {injectables : List Injectable} {bindings : Bindings}

/-- Sorting rows neither adds nor loses one. -/
theorem mem_inRowOrder {injectable : Injectable}
    : injectable ∈ Emission.inRowOrder injectables ↔ injectable ∈ injectables :=
  List.mem_mergeSort

/-- The table of a component has one row for each descriptor, and its depth limit is one more. -/
theorem depthLimit_generated
    : (generated keyOf injectables bindings).depthLimit = injectables.length + 1 := by
  simp [depthLimit, generated, Emission.inRowOrder]

/-- Every row is that of an injectable. -/
theorem exists_injectable_of_find? {key : TypeKey} {recipe : Recipe}
    (found : Recipe.find? (generated keyOf injectables bindings).recipes key = some recipe)
    : ∃ injectable ∈ injectables,
        recipe = Recipe.ofInjectable keyOf injectable ∧ key = keyOf injectable.target := by
  obtain ⟨member, same⟩ := Recipe.mem_of_find? found
  obtain ⟨injectable, inOrder, rfl⟩ := List.mem_map.mp member
  exact ⟨injectable, mem_inRowOrder.mp inOrder, rfl, same.symm⟩

/-- The target of a descriptor is mentioned. -/
theorem mem_mentioned_target {injectable : Injectable} (member : injectable ∈ injectables)
    : injectable.target ∈ Injectable.mentioned injectables :=
  List.mem_flatMap.mpr ⟨injectable, member, by simp⟩

/-- So are its parameters. -/
theorem mem_mentioned_parameter {injectable : Injectable} {parameter : TypeName}
    (member : injectable ∈ injectables) (needed : parameter ∈ injectable.parameters)
    : parameter ∈ Injectable.mentioned injectables :=
  List.mem_flatMap.mpr ⟨injectable, member, List.mem_cons_of_mem _ needed⟩

/-- Injectables with one target are one injectable. -/
theorem eq_of_target_eq (distinct : (injectables.map Injectable.target).Nodup)
    {left right : Injectable} (inLeft : left ∈ injectables) (inRight : right ∈ injectables)
    (same : left.target = right.target)
    : left = right :=
  List.inj_on_of_nodup_map distinct inLeft inRight same

/-- The row that counts for the key of a target is that of its injectable. -/
theorem find?_generated (distinct : (injectables.map Injectable.target).Nodup)
    (apart : TypeKey.TellsApart keyOf injectables) {injectable : Injectable}
    (member : injectable ∈ injectables)
    : Recipe.find? (generated keyOf injectables bindings).recipes (keyOf injectable.target)
      = some (Recipe.ofInjectable keyOf injectable) := by
  cases found
      : Recipe.find? (generated keyOf injectables bindings).recipes (keyOf injectable.target) with
  | none =>
      have absent := List.find?_eq_none.mp found (Recipe.ofInjectable keyOf injectable)
        (List.mem_reverse.mpr (List.mem_map.mpr ⟨injectable, mem_inRowOrder.mpr member, rfl⟩))
      simp [Recipe.ofInjectable] at absent
  | some recipe =>
      obtain ⟨other, inOther, rfl, same⟩ := exists_injectable_of_find? found
      have targets := apart _ (mem_mentioned_target member) _ (mem_mentioned_target inOther) same
      rw [eq_of_target_eq distinct member inOther targets]

/-- A mentioned type without a row is no target. -/
theorem find?_generated_eq_none_iff (apart : TypeKey.TellsApart keyOf injectables)
    {type : TypeName} (mentioned : type ∈ Injectable.mentioned injectables)
    : Recipe.find? (generated keyOf injectables bindings).recipes (keyOf type) = none
      ↔ ∀ injectable ∈ injectables, injectable.target ≠ type := by
  constructor
  · rintro rowless injectable member rfl
    have absent := List.find?_eq_none.mp rowless (Recipe.ofInjectable keyOf injectable)
      (List.mem_reverse.mpr (List.mem_map.mpr ⟨injectable, mem_inRowOrder.mpr member, rfl⟩))
    simp [Recipe.ofInjectable] at absent
  · intro noTarget
    by_contra present
    obtain ⟨recipe, found⟩ := Option.ne_none_iff_exists'.mp present
    obtain ⟨injectable, member, _, same⟩ := exists_injectable_of_find? found
    exact noTarget injectable member
      (apart _ mentioned _ (mem_mentioned_target member) same).symm

end Container

end Wiring
