import Wiring.Proofs.Container.Evaluation

/-! Why resolving fails. A key is reported missing only where nothing could stand for it. Where the
host has bound instances under their own types, an instance of a wrong type turns up only where a recipe
makes one.
-/

namespace Wiring

-----------------------------------------------------------------------------------------
-- What hosts bind
-----------------------------------------------------------------------------------------

namespace Bindings

/-- All instances are bound under their own types. -/
def Typed (bindings : Bindings) : Prop :=
  ∀ key value, bindings.get? key = some value → value.type = key

/-- Nothing is bound, so nothing under a wrong type. -/
theorem Typed.empty : Typed {} := by
  simp [Typed, get?]

/-- An instance that is bound under its own type keeps bindings typed: at its key it is found itself,
and elsewhere what was found before.
-/
theorem Typed.insert {bindings : Bindings} (typed : bindings.Typed) (value : Instance)
    : (bindings.insert value.type value).Typed := by
  intro key held bound
  rw [get?_insert] at bound
  split at bound
  · rename_i same
    obtain rfl : value = held := by simpa using bound
    exact same.symm
  · exact typed key held bound

end Bindings

-----------------------------------------------------------------------------------------
-- Which faults there are
-----------------------------------------------------------------------------------------

namespace Container

variable {container : Container}

/-- Nothing can stand for the key: it has neither a binding nor a recipe. -/
structure Lacks (container : Container) (key : TypeKey) : Prop where
  unbound : container.bindings.get? key = none
  rowless : Recipe.find? container.recipes key = none

/-- The key is a parameter of a recipe that counts. -/
def Wants (container : Container) (key : TypeKey) : Prop :=
  ∃ other recipe, Recipe.find? container.recipes other = some recipe ∧ key ∈ recipe.parameters

/-- What is missing is lacking, and was asked for by the host or by a recipe. -/
theorem invariant_missing (container : Container)
    : container.Invariant
        (fun _ key outcome =>
          ∀ absent,
            outcome.result = .error (.missing absent)
            → container.Lacks absent ∧ (absent = key ∨ container.Wants absent))
        (fun _ keys outcome =>
          ∀ absent,
            outcome.result = .error (.missing absent)
            → container.Lacks absent ∧ (absent ∈ keys ∨ container.Wants absent)) where
  taken _ := by simp
  missing unbound rowless := by
    intro absent failed
    obtain rfl := ResolutionFault.missing.inj (Except.error.inj failed)
    exact ⟨⟨unbound, rowless⟩, .inl rfl⟩
  spoiled {made key recipe fault parts} _ found parameters failed := by
    intro absent same
    obtain rfl := Except.error.inj same
    obtain ⟨lacks, asked | wants⟩ := parameters absent failed
    · exact ⟨lacks, .inr ⟨key, recipe, found, asked⟩⟩
    · exact ⟨lacks, .inr wants⟩
  built _ _ _ _ := by simp
  finished := by simp
  stuck {made first rest fault head} one failed := by
    intro absent same
    obtain rfl := Except.error.inj same
    rcases Outcome.typed_result_eq_error failed with failed | ⟨value, _, _, mismatch⟩
    · obtain ⟨lacks, rfl | wants⟩ := one absent failed
      · exact ⟨lacks, .inl (by simp)⟩
      · exact ⟨lacks, .inr wants⟩
    · cases mismatch
  advanced {made first rest value head others} _ _ _ each := by
    intro absent same
    obtain ⟨lacks, asked | wants⟩ := each absent (map_eq_error_iff.mp same)
    · exact ⟨lacks, .inl (List.mem_cons_of_mem first asked)⟩
    · exact ⟨lacks, .inr wants⟩

/-- Every recipe that counts makes the very type it counts for. -/
def MakesOwnTypes (container : Container) : Prop :=
  ∀ key recipe, Recipe.find? container.recipes key = some recipe → recipe.makes = key

/-- With bindings and recipes of the right types, what is found is of the type it was asked for, and
nothing goes wrong but that something is missing. A binding and a recipe give their own types, and a
check that fails would find another one.
-/
theorem invariant_typed (bound : container.bindings.Typed) (makes : container.MakesOwnTypes)
    : container.Invariant
        (fun _ key outcome =>
          (∀ value, outcome.result = .ok value → value.type = key)
          ∧ ∀ fault, outcome.result = .error fault → ∃ absent, fault = .missing absent)
        (fun _ _ outcome =>
          ∀ fault, outcome.result = .error fault → ∃ absent, fault = .missing absent) where
  taken found := by
    refine ⟨?_, by simp⟩
    intro value same
    obtain rfl := Except.ok.inj same
    exact bound _ _ found
  missing {made key} _ _ := by
    refine ⟨by simp, ?_⟩
    intro fault same
    obtain rfl := Except.error.inj same
    exact ⟨key, rfl⟩
  spoiled _ _ parameters failed := by
    refine ⟨by simp, ?_⟩
    intro fault same
    obtain rfl := Except.error.inj same
    exact parameters _ failed
  built _ found _ _ := by
    refine ⟨?_, by simp⟩
    intro value same
    obtain rfl := Except.ok.inj same
    exact makes _ _ found
  finished := by simp
  stuck one failed := by
    intro fault same
    obtain rfl := Except.error.inj same
    rcases Outcome.typed_result_eq_error failed with failed | ⟨value, succeeded, differs, _⟩
    · exact one.2 _ failed
    · exact absurd (one.1 value succeeded) differs
  advanced _ _ _ each := by
    intro fault same
    exact each fault (map_eq_error_iff.mp same)

end Container

end Wiring
