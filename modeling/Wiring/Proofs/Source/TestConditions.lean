import Wiring.Proofs.Source.WrittenConditions

/-! What it means that a condition asks for a test build. It holds in no build that is not one; and of
conditions without negations, it is asked of exactly those that hold in test builds alone.
-/

namespace Wiring.Source

open Grammar

namespace Condition

-----------------------------------------------------------------------------------------
-- Truth
-----------------------------------------------------------------------------------------

mutual

/-- Whether the condition holds in a build where the atoms have the truth values given. -/
def holds (truth : String → Bool) : Condition → Bool
  | atom text => truth text
  | all conditions => eachHolds truth conditions
  | any conditions => someHolds truth conditions
  | not condition => !holds truth condition

/-- Whether all of the conditions hold. -/
def eachHolds (truth : String → Bool) : List Condition → Bool
  | [] => true
  | first :: rest => holds truth first && eachHolds truth rest

/-- Whether one of them does. -/
def someHolds (truth : String → Bool) : List Condition → Bool
  | [] => false
  | first :: rest => holds truth first || someHolds truth rest

end

mutual

/-- Whether nothing is negated, and no choice is one of no conditions. -/
def isPositive : Condition → Bool
  | atom _ => true
  | all conditions => arePositive conditions
  | any conditions => !conditions.isEmpty && arePositive conditions
  | not _ => false

/-- Whether all of them are positive. -/
def arePositive : List Condition → Bool
  | [] => true
  | first :: rest => isPositive first && arePositive rest

end

variable {truth : String → Bool}

mutual

/-- A condition that asks for a test build holds in no other build. -/
theorem holds_eq_false (outside : truth "test" = false) {condition : Condition}
    (requires : condition.requiresTest = true)
    : condition.holds truth = false := by
  cases condition with
  | atom text =>
      have test : text = "test" := of_decide_eq_true requires
      rw [holds, test, outside]
  | all conditions => exact eachHolds_eq_false outside requires
  | any conditions =>
      cases conditions with
      | nil => contradiction
      | cons first rest =>
          obtain ⟨here, others⟩ := Bool.and_eq_true_iff.mp requires
          have none := someHolds_eq_false outside others
          rw [holds, someHolds, holds_eq_false outside here, none, Bool.or_false]
  | not condition => contradiction

/-- One condition that asks for a test build is enough to spoil all of them. -/
theorem eachHolds_eq_false (outside : truth "test" = false) {conditions : List Condition}
    (requires : someRequiresTest conditions = true)
    : eachHolds truth conditions = false := by
  cases conditions with
  | nil => contradiction
  | cons first rest =>
      rw [eachHolds, Bool.and_eq_false_iff]
      rcases Bool.or_eq_true_iff.mp requires with here | others
      · exact .inl (holds_eq_false outside here)
      · exact .inr (eachHolds_eq_false outside others)

/-- If each alternative asks for a test build, none of them holds outside, in one induction with the
conditions inside.
-/
theorem someHolds_eq_false (outside : truth "test" = false) {conditions : List Condition}
    (requires : eachRequiresTest conditions = true)
    : someHolds truth conditions = false := by
  cases conditions with
  | nil => rfl
  | cons first rest =>
      obtain ⟨here, others⟩ := Bool.and_eq_true_iff.mp requires
      rw [someHolds, holds_eq_false outside here, someHolds_eq_false outside others, Bool.or_false]

end

/-- A build that is no test build and has all that can be asked for besides. -/
def fullBuild (text : String) : Bool :=
  text ≠ "test"

mutual

/-- Without negations, a condition that does not ask for a test build holds in a build with all else. -/
theorem holds_fullBuild {condition : Condition} (positive : condition.isPositive = true)
    (plain : condition.requiresTest = false)
    : condition.holds fullBuild = true := by
  cases condition with
  | atom text =>
      have other : text ≠ "test" := of_decide_eq_false plain
      exact decide_eq_true other
  | all conditions => exact eachHolds_fullBuild positive plain
  | any conditions =>
      obtain ⟨some, positive⟩ := Bool.and_eq_true_iff.mp positive
      cases conditions with
      | nil => contradiction
      | cons first rest => exact someHolds_fullBuild positive plain
  | not condition => contradiction

/-- Positive conditions that do not ask for a test build all hold in the full one. -/
theorem eachHolds_fullBuild {conditions : List Condition} (positive : arePositive conditions = true)
    (plain : someRequiresTest conditions = false)
    : eachHolds fullBuild conditions = true := by
  cases conditions with
  | nil => rfl
  | cons first rest =>
      obtain ⟨positive, others⟩ := Bool.and_eq_true_iff.mp positive
      obtain ⟨here, there⟩ := Bool.or_eq_false_iff.mp plain
      rw [eachHolds, holds_fullBuild positive here, eachHolds_fullBuild others there, Bool.and_true]

/-- One condition that does not ask for a test build is enough for a choice to hold. -/
theorem someHolds_fullBuild {conditions : List Condition} (positive : arePositive conditions = true)
    (plain : eachRequiresTest conditions = false)
    : someHolds fullBuild conditions = true := by
  cases conditions with
  | nil => contradiction
  | cons first rest =>
      obtain ⟨positive, others⟩ := Bool.and_eq_true_iff.mp positive
      rw [someHolds, Bool.or_eq_true_iff]
      rcases Bool.and_eq_false_iff.mp plain with here | there
      · exact .inl (holds_fullBuild positive here)
      · exact .inr (someHolds_fullBuild others there)

end

-----------------------------------------------------------------------------------------
-- Test builds
-----------------------------------------------------------------------------------------

/-- A condition that asks for a test build, as it is written between the parentheses of `cfg`, holds in
test builds alone; and without negations and empty choices, the conditions that hold in test builds
alone are those that ask for one. A condition that asks for nothing holds in a full build outside of
tests.
-/
theorem requiresTest_exact (condition : Condition)
    : (∀ tokens,
          Spells tokens condition
          → isTestOnly [⟨false, ["cfg"], .group tokens⟩] = condition.requiresTest)
      ∧ (condition.requiresTest = true
        → ∀ truth, truth "test" = false → condition.holds truth = false)
      ∧ (condition.isPositive = true
        → (condition.requiresTest = true
          ↔ ∀ truth, condition.holds truth = true → truth "test" = true)) := by
  refine ⟨fun tokens spelled => ?_, fun requires truth outside => holds_eq_false outside requires,
    fun positive => ⟨fun requires truth holds => ?_, fun implies => ?_⟩⟩
  · simp [isTestOnly, ofAttribute?_of_spells spelled]
  · apply Bool.of_not_eq_false
    intro outside
    rw [holds_eq_false outside requires] at holds
    contradiction
  · apply Bool.of_not_eq_false
    intro plain
    have inTests := implies fullBuild (holds_fullBuild positive plain)
    contradiction

/-- Mocks are compiled in test builds with a feature, and in no other build. -/
theorem requiresTest_exact_mocks
    : let written : Tokens :=
        [.word "all" 1, .group .paren
          [.word "test" 1, .mark ',' false, .word "feature" 1, .mark '=' false, .literal "\"mocks\""]]
      let mocks : Condition := .all [.atom "test", .atom "feature = \"mocks\""]
      Spells written mocks
        ∧ isTestOnly [⟨false, ["cfg"], .group written⟩] = true
        ∧ ∀ truth, truth "test" = false → mocks.holds truth = false := by
  intro written mocks
  have feature : SpellsPath [.word "feature" 1] false ["feature"] := .plain (.last (by decide))
  have spelled : Spells written mocks :=
    .all (.cons (.flag (.plain (.last (by decide)))) (.last (.setting feature _)))
  obtain ⟨read, outside, _⟩ := requiresTest_exact mocks
  exact ⟨spelled, read written spelled, outside rfl⟩

end Condition

end Wiring.Source
