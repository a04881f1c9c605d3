import Mathlib.Data.List.Nodup
import Wiring.Index.Resolve
import Wiring.Intake

/-! What the rulings of a round are. Without a diagnostic, all declarations are flawless, those whose
types are known are accepted under targets of their own, and all others are deferred. A duplicate is
reported only after an injectable of the same target.
-/

namespace Wiring

/-- The injectable that a candidate stands for once its types are known. -/
def Candidate.injectable? (candidate : Candidate) : Option Injectable :=
  match candidate.owner, candidate.parameters with
  | some target, some parameters =>
      some ⟨target, candidate.marked.name, parameters, candidate.marked.location⟩
  | _, _ => none

/-- A resolved candidate has its owner as the target, and all of its parameters. -/
theorem Candidate.injectable?_eq_some {candidate : Candidate} {injectable : Injectable}
    (resolved : candidate.injectable? = some injectable)
    : candidate.owner = some injectable.target
      ∧ candidate.parameters = some injectable.parameters
      ∧ injectable.constructor = candidate.marked.name
      ∧ injectable.location = candidate.marked.location := by
  unfold Candidate.injectable? at resolved
  split at resolved
  · rename_i target parameters owner declared
    obtain rfl := Option.some.inj resolved
    exact ⟨owner, declared, rfl, rfl⟩
  · contradiction

/-- A flaw in the form of a declaration makes it no duplicate. -/
theorem Marked.kind_of_fault? {marked : Marked} {diagnostic : Diagnostic}
    (flawed : marked.fault? = some diagnostic)
    : diagnostic.kind ≠ .duplicateBinding := by
  unfold Marked.fault? at flawed
  split at flawed
  · obtain rfl := Option.some.inj flawed
    simp
  · split at flawed
    · obtain rfl := Option.some.inj flawed
      simp
    · obtain ⟨parameter, _, found⟩ := List.exists_of_findSome?_eq_some flawed
      split at found
      · contradiction
      · obtain rfl := Option.some.inj found
        simp

namespace Ruling

/-- The ruling on a candidate, case by case. -/
inductive Decides (taken : List Injectable) (candidate : Candidate) : Ruling → Prop
  | flawed {diagnostic} (fault : candidate.marked.fault? = some diagnostic)
    : Decides taken candidate (.invalid diagnostic)
  | deferred (plain : candidate.marked.fault? = none) (unknown : candidate.injectable? = none)
    : Decides taken candidate (.deferred candidate.marked)
  | duplicate {injectable first : Injectable} (plain : candidate.marked.fault? = none)
    (resolved : candidate.injectable? = some injectable) (earlier : first ∈ taken)
    (same : first.target = injectable.target)
    : Decides taken candidate (.invalid (duplicate candidate.marked injectable.target first))
  | accepted {injectable} (plain : candidate.marked.fault? = none)
    (resolved : candidate.injectable? = some injectable)
    (fresh : ∀ earlier ∈ taken, earlier.target ≠ injectable.target)
    : Decides taken candidate (.accepted injectable)

/-- A ruling looks for faults, then for the resolution, then for a duplicate. -/
theorem on_eq (taken : List Injectable) (candidate : Candidate)
    : on taken candidate
      = match candidate.marked.fault? with
        | some diagnostic => .invalid diagnostic
        | none =>
            match candidate.injectable? with
            | none => .deferred candidate.marked
            | some injectable =>
                match taken.find? fun earlier => earlier.target = injectable.target with
                | some first => .invalid (duplicate candidate.marked injectable.target first)
                | none => .accepted injectable := by
  unfold on Candidate.injectable?
  dsimp only
  cases candidate.marked.fault? <;> cases candidate.owner <;> cases candidate.parameters <;> rfl

/-- Each ruling is one of the decisions, by these cases. -/
theorem decides_on (taken : List Injectable) (candidate : Candidate)
    : Decides taken candidate (on taken candidate) := by
  rw [on_eq]
  split
  · exact .flawed ‹_›
  · split
    · exact .deferred ‹_› ‹_›
    · split
      · rename_i injectable resolved _ first found
        have same : first.target = injectable.target := by simpa using List.find?_some found
        exact .duplicate ‹_› resolved (List.mem_of_find?_eq_some found) same
      · rename_i injectable resolved _ absent
        refine .accepted ‹_› resolved fun earlier member => ?_
        simpa using List.find?_eq_none.mp absent earlier member

end Ruling

/-- What the rulings without a diagnostic take in. -/
structure Intake.Takes (known : List Injectable) (candidates : List Candidate) (intake : Intake)
    : Prop where
  plain : ∀ candidate ∈ candidates, candidate.marked.fault? = none
  accepted : intake.accepted = candidates.filterMap Candidate.injectable?
  deferred
    : intake.deferred
      = (candidates.filter fun candidate => candidate.injectable?.isNone).map Candidate.marked
  fresh
    : ∀ injectable ∈ intake.accepted, ∀ earlier ∈ known, earlier.target ≠ injectable.target
  distinct : (intake.accepted.map Injectable.target).Nodup

namespace Ruling

/-- Rulings without a diagnostic take in what they accept and defer the rest, by induction on the
candidates.
-/
theorem takes_all {known : List Injectable} {candidates : List Candidate}
    (valid : (all known candidates).filterMap diagnostic? = [])
    : Intake.Takes known candidates
        ⟨(all known candidates).filterMap accepted?, (all known candidates).filterMap deferred?⟩ := by
  induction candidates generalizing known with
  | nil => exact ⟨by simp, rfl, rfl, by simp [all], by simp [all]⟩
  | cons candidate rest ih =>
      have decided := decides_on known candidate
      unfold all at valid ⊢
      generalize on known candidate = ruling at decided valid ⊢
      cases decided with
      | flawed | duplicate => simp [diagnostic?] at valid
      | deferred plain unknown =>
          have takes := ih (by simpa [diagnostic?] using valid)
          refine ⟨List.forall_mem_cons.mpr ⟨plain, takes.plain⟩, ?_, ?_, takes.fresh, takes.distinct⟩
          · have passed : accepted? (.deferred candidate.marked) = none := rfl
            rw [List.filterMap_cons_none passed, List.filterMap_cons_none unknown]
            exact takes.accepted
          · simpa [deferred?, unknown] using takes.deferred
      | @accepted injectable plain resolved apart =>
          have takes := ih (by simpa [diagnostic?] using valid)
          refine ⟨List.forall_mem_cons.mpr ⟨plain, takes.plain⟩, ?_, ?_, ?_, ?_⟩
          · simpa [accepted?, resolved] using takes.accepted
          · have passed : deferred? (.accepted injectable) = none := rfl
            rw [List.filterMap_cons_none passed, List.filter_cons_of_neg (by simp [resolved])]
            exact takes.deferred
          · refine List.forall_mem_cons.mpr ⟨apart, fun later member earlier known => ?_⟩
            exact takes.fresh later member earlier (List.mem_append_left _ known)
          · refine List.nodup_cons.mpr ⟨fun repeated => ?_, takes.distinct⟩
            obtain ⟨later, member, same⟩ := List.mem_map.mp repeated
            exact takes.fresh later member injectable (by simp) same.symm

/-- A reported duplicate comes after an injectable of the same target: one accepted before, or a
candidate in front of it, by induction on the candidates, each of which adds to what is known if it is
accepted.
-/
theorem exists_of_mem_diagnostics {known : List Injectable} {candidates : List Candidate}
    {diagnostic : Diagnostic} (reported : diagnostic ∈ (all known candidates).filterMap diagnostic?)
    (kind : diagnostic.kind = .duplicateBinding)
    : ∃ (before : List Candidate) (candidate : Candidate) (after : List Candidate)
        (injectable first : Injectable),
        candidates = before ++ candidate :: after
        ∧ candidate.marked.fault? = none
        ∧ candidate.injectable? = some injectable
        ∧ diagnostic = duplicate candidate.marked injectable.target first
        ∧ first.target = injectable.target
        ∧ (first ∈ known
          ∨ ∃ other ∈ before, other.marked.fault? = none ∧ other.injectable? = some first) := by
  induction candidates generalizing known with
  | nil => simp [all] at reported
  | cons candidate rest ih =>
      have decided := decides_on known candidate
      unfold all at reported
      generalize on known candidate = ruling at decided reported
      have later {taken : List Injectable}
          (reported : diagnostic ∈ (all taken rest).filterMap diagnostic?)
          (taken
            : ∀ first ∈ taken, first ∈ known
              ∨ candidate.marked.fault? = none ∧ candidate.injectable? = some first)
          : ∃ (before : List Candidate) (found : Candidate) (after : List Candidate)
              (injectable first : Injectable),
              candidate :: rest = before ++ found :: after
              ∧ found.marked.fault? = none
              ∧ found.injectable? = some injectable
              ∧ diagnostic = duplicate found.marked injectable.target first
              ∧ first.target = injectable.target
              ∧ (first ∈ known
                ∨ ∃ other ∈ before,
                    other.marked.fault? = none ∧ other.injectable? = some first) := by
        obtain ⟨before, found, after, injectable, first, rfl, plain, resolved, same, target, source⟩ :=
          ih reported
        refine ⟨candidate :: before, found, after, injectable, first, rfl, plain, resolved, same,
          target, ?_⟩
        rcases source with member | ⟨other, member, made⟩
        · rcases taken first member with member | made
          · exact .inl member
          · exact .inr ⟨candidate, by simp, made⟩
        · exact .inr ⟨other, List.mem_cons_of_mem candidate member, made⟩
      cases decided with
      | flawed fault =>
          simp only [diagnostic?, List.filterMap_cons, List.mem_cons] at reported
          rcases reported with rfl | reported
          · exact absurd kind (Marked.kind_of_fault? fault)
          · exact later reported fun first member => .inl member
      | deferred =>
          simp only [diagnostic?, List.filterMap_cons] at reported
          exact later reported fun first member => .inl member
      | @duplicate injectable first plain resolved earlier same =>
          simp only [diagnostic?, List.filterMap_cons, List.mem_cons] at reported
          rcases reported with rfl | reported
          · exact ⟨[], candidate, rest, injectable, first, rfl, plain, resolved, rfl, same, .inl earlier⟩
          · exact later reported fun first member => .inl member
      | @accepted injectable plain resolved fresh =>
          simp only [diagnostic?, List.filterMap_cons] at reported
          refine later reported fun first member => ?_
          rcases List.mem_append.mp member with member | member
          · exact .inl member
          · rw [List.mem_singleton.mp member]
            exact .inr ⟨plain, resolved⟩

end Ruling

namespace Intake

/-- An intake is made of rulings that have no diagnostic. -/
theorem ofRulings_eq_ok {rulings : List Ruling} {intake : Intake}
    (valid : ofRulings rulings = .ok intake)
    : rulings.filterMap Ruling.diagnostic? = []
      ∧ intake
        = ⟨rulings.filterMap Ruling.accepted?, rulings.filterMap Ruling.deferred?⟩ := by
  unfold ofRulings at valid
  split at valid
  · rename_i none
    exact ⟨none, (Except.ok.inj valid).symm⟩
  · contradiction

/-- So an intake is what such rulings take in. -/
theorem takes_of_ofRulings {known : List Injectable} {candidates : List Candidate}
    {intake : Intake} (valid : ofRulings (Ruling.all known candidates) = .ok intake)
    : Takes known candidates intake := by
  obtain ⟨none, rfl⟩ := ofRulings_eq_ok valid
  exact Ruling.takes_all none

/-- Rulings fail with all of their diagnostics, if there are any. -/
theorem ofRulings_eq_error_iff {rulings : List Ruling} {diagnostics : List Diagnostic}
    : ofRulings rulings = .error diagnostics
      ↔ diagnostics = rulings.filterMap Ruling.diagnostic? ∧ diagnostics ≠ [] := by
  unfold ofRulings
  cases rulings.filterMap Ruling.diagnostic? with
  | nil => simp
  | cons first rest =>
      simp only [Except.error.injEq]
      constructor
      · rintro rfl
        exact ⟨rfl, List.cons_ne_nil _ _⟩
      · exact fun reported => reported.1.symm

/-- The diagnostics are those of the rulings, in order. -/
theorem eq_of_ofRulings_eq_error {rulings : List Ruling} {diagnostics : List Diagnostic}
    (invalid : ofRulings rulings = .error diagnostics)
    : diagnostics = rulings.filterMap Ruling.diagnostic? :=
  (ofRulings_eq_error_iff.mp invalid).1

end Intake

end Wiring
