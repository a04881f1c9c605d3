import Wiring.Proofs.Emission.Agreement
import Wiring.Proofs.QualifiedNames

/-! Rows and the qualified names of their targets. Names tell types apart, but modules are compared
before names are. So the rows of a component are in the order of the qualified names if and only if none
of its targets overtakes another one.
-/

namespace Wiring.Emission

open Source Text

variable {text other : String} {left right : TypeName} {injectables : List Injectable}

/-- Types that were read from texts are in the order of their qualified names if and only if neither of
them overtakes the other. Both orders are total, so they differ just where one of the types overtakes
the other.
-/
theorem lt_iff_bytes_lt_iff (read : TypeName.parse? text = some left)
    (otherRead : TypeName.parse? other = some right)
    : (left < right ↔ bytes left.qualified < bytes right.qualified)
      ↔ ¬ right.Overtakes left ∧ ¬ left.Overtakes right := by
  simp only [bytes_lt_iff, TypeName.overtakes_iff]
  constructor
  · intro agree
    refine ⟨?_, ?_⟩
    · rintro ⟨less, overtakes⟩
      exact String.lt_asymm (agree.mp less) overtakes
    · rintro ⟨less, overtakes⟩
      exact asymm_of (· < ·) less (agree.mpr overtakes)
  · rintro ⟨rightStays, leftStays⟩
    constructor
    · intro less
      rcases trichotomous_of (fun left right : String => left < right) left.qualified
        right.qualified with below | same | above
      · exact below
      · rw [(TypeName.eq_iff_qualified_eq read otherRead).mpr same] at less
        exact absurd less (irrefl_of (· < ·) right)
      · exact absurd ⟨less, above⟩ rightStays
    · intro below
      rcases TypeName.lt_trichotomy left right with less | rfl | greater
      · exact less
      · exact absurd below (String.lt_irrefl _)
      · exact absurd ⟨greater, below⟩ leftStays

/-- So are the rows of a component. Two rows stand in the order of their targets, so a pair that the
names turn round is one that overtakes.
-/
theorem sorted_rows_iff
    : ((inRowOrder injectables).Pairwise fun first second =>
          ¬ bytes second.target.qualified < bytes first.target.qualified)
      ↔ ∀ first ∈ injectables, ∀ second ∈ injectables, ¬ second.target.Overtakes first.target := by
  simp only [bytes_lt_iff, TypeName.overtakes_iff]
  have sorted := sorted_inRowOrder injectables
  have ordered := inRowOrder_perm injectables
  constructor
  · intro byName
    -- Of two rows, the second one neither is overtaken nor overtakes.
    have kept
        : ∀ first ∈ inRowOrder injectables, ∀ second ∈ inRowOrder injectables,
            ¬ (first.target < second.target ∧ second.target.qualified < first.target.qualified) :=
      List.Pairwise.forall_of_forall_of_flip (fun row _ both => irrefl_of (· < ·) _ both.1)
        (byName.imp fun notLess both => notLess both.2)
        (sorted.imp fun notBelow both => notBelow both.1)
    exact fun first inFirst second inSecond =>
      kept first (ordered.mem_iff.mpr inFirst) second (ordered.mem_iff.mpr inSecond)
  · intro none
    refine sorted.imp_of_mem fun {first second} inFirst inSecond notBelow less => ?_
    rcases TypeName.lt_trichotomy first.target second.target with below | same | above
    · exact none first (ordered.mem_iff.mp inFirst) second (ordered.mem_iff.mp inSecond)
        ⟨below, less⟩
    · rw [same] at less
      exact String.lt_irrefl _ less
    · exact notBelow above

/-- Qualified names say whether types are equal, and in which order they come as long as neither of them
overtakes the other. A component has its rows in the order of types, which is that of the qualified
names if and only if no target overtakes another one.
-/
theorem rows_by_qualified_name {settings : Settings} {artifact : Artifact}
    (read : TypeName.parse? text = some left) (otherRead : TypeName.parse? other = some right)
    (made : component settings injectables = .ok artifact)
    : (left = right ↔ left.qualified = right.qualified)
      ∧ ((left < right ↔ bytes left.qualified < bytes right.qualified)
        ↔ ¬ right.Overtakes left ∧ ¬ left.Overtakes right)
      ∧ ∃ runtime name rows,
          rows? runtime (bareName name ++ "Dispatch") (inRowOrder injectables) = some rows
          ∧ artifact.content
            = render (componentCode runtime name (bareName name ++ "Dispatch") rows)
          ∧ (((inRowOrder injectables).Pairwise fun first second =>
                ¬ bytes second.target.qualified < bytes first.target.qualified)
            ↔ ∀ first ∈ injectables, ∀ second ∈ injectables,
                ¬ second.target.Overtakes first.target) := by
  obtain ⟨runtime, name, rows, _, _, found, rfl⟩ := component_eq_ok made
  exact ⟨TypeName.eq_iff_qualified_eq read otherRead, lt_iff_bytes_lt_iff read otherRead,
    runtime, name, rows, found, rfl, sorted_rows_iff⟩

/-- The repository and its client have the rows of their names. -/
theorem rows_by_qualified_name_repositoryAndClient
    : ∃ artifact,
        component {} repositoryAndClient = .ok artifact
        ∧ (TypeName.mk "crate::net" "NetworkClient" < ⟨"crate::repo", "Repository1"⟩
          ↔ bytes "crate::net::NetworkClient" < bytes "crate::repo::Repository1")
        ∧ (inRowOrder repositoryAndClient).Pairwise fun first second =>
            ¬ bytes second.target.qualified < bytes first.target.qualified := by
  obtain ⟨artifact, made, _⟩ : ∃ artifact, component {} repositoryAndClient = .ok artifact ∧ _ :=
    exists_component_spells allSpelled_repositoryAndClient isBare_repositoryAndClient
      Settings.readPath?_default Settings.readIdentifier?_default
  have read
      : TypeName.parse? "crate::net::NetworkClient" = some ⟨"crate::net", "NetworkClient"⟩ := by
    decide +kernel
  have otherRead
      : TypeName.parse? "crate::repo::Repository1" = some ⟨"crate::repo", "Repository1"⟩ := by
    decide +kernel
  obtain ⟨_, agree, _, _, _, _, _, sorted⟩ := rows_by_qualified_name read otherRead made
  have none
      : ∀ first ∈ repositoryAndClient, ∀ second ∈ repositoryAndClient,
          ¬ (first.target < second.target
            ∧ second.target.qualified < first.target.qualified) := by
    decide +kernel
  simp only [← TypeName.overtakes_iff] at none
  refine ⟨artifact, made, agree.mpr ⟨?_, ?_⟩, sorted.mpr none⟩
  · exact none _ (List.mem_cons_of_mem _ List.mem_cons_self) _ List.mem_cons_self
  · exact none _ List.mem_cons_self _ (List.mem_cons_of_mem _ List.mem_cons_self)

/-- Two types in modules one of whose names begins with the other. -/
def clientAndCache : List Injectable :=
  [TypeName.mk "crate::net" "Client", ⟨"crate::net2", "Cache"⟩].map fun target =>
    { target, constructor := "new", parameters := [], location := ⟨⟨"src/lib.rs"⟩, 1⟩ }

/-- The cache overtakes the client, so that not all rows are in the order of the names. -/
theorem rows_against_qualified_names
    : ∃ left right,
        TypeName.parse? "crate::net::Client" = some left
        ∧ TypeName.parse? "crate::net2::Cache" = some right
        ∧ left < right
        ∧ bytes right.qualified < bytes left.qualified
        ∧ clientAndCache.map Injectable.target = [left, right]
        ∧ ¬ (inRowOrder clientAndCache).Pairwise fun first second =>
            ¬ bytes second.target.qualified < bytes first.target.qualified := by
  have order
      : TypeName.mk "crate::net" "Client" < ⟨"crate::net2", "Cache"⟩
        ∧ (TypeName.mk "crate::net2" "Cache").qualified
          < (TypeName.mk "crate::net" "Client").qualified := by
    decide +kernel
  refine ⟨⟨"crate::net", "Client"⟩, ⟨"crate::net2", "Cache"⟩, by decide +kernel, by decide +kernel,
    order.1, bytes_lt_iff.mpr order.2, rfl, ?_⟩
  rw [sorted_rows_iff]
  intro none
  exact none _ List.mem_cons_self _ (List.mem_cons_of_mem _ List.mem_cons_self)
    (TypeName.overtakes_iff.mpr order)

end Wiring.Emission
