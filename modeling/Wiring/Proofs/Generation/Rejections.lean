import Wiring.Proofs.Answers
import Wiring.Proofs.Generation.Rulings

/-! Which declarations a scan rejects, said of the declarations alone: those of a flawed form, and those
whose type is known or offered by one accepted before. A scan reports them all in their order, or
else takes in all others.
-/

namespace Wiring

-----------------------------------------------------------------------------------------
-- The form of a declaration
-----------------------------------------------------------------------------------------

namespace Marked

/-- What is wrong with the form of a declaration. An objection comes before a generic owner, and this
before the parameters, of which the first one that is not shared counts.
-/
inductive Flaw (marked : Marked) : Diagnostic → Prop
  | notAConstructor {objection} (objected : marked.objection = some objection)
    : Flaw marked ⟨.notAConstructor, marked.location, marked.text, objection.message⟩
  | genericOwner (free : marked.objection = none) (generic : marked.ownerIsGeneric = true)
    : Flaw marked
        ⟨.genericOwner, marked.location, marked.text, "generic types cannot be injected"⟩
  | unsupportedParameter {before name written after} (free : marked.objection = none)
    (nominal : marked.ownerIsGeneric = false)
    (listed : marked.parameters = before ++ ⟨name, .unsupported written⟩ :: after)
    (supported : ∀ parameter ∈ before, ∃ path, parameter.shape = .shared path)
    : Flaw marked
        ⟨.unsupportedParameter, marked.location, marked.text,
          "parameter `" ++ name ++ ": " ++ written
            ++ "` must be an `Arc<T>` of a non-generic type"⟩

/-- A declaration of the right shape. -/
structure WellShaped (marked : Marked) : Prop where
  free : marked.objection = none
  nominal : marked.ownerIsGeneric = false
  supported : ∀ parameter ∈ marked.parameters, ∃ path, parameter.shape = .shared path

variable {marked : Marked}

/-- The fault that is found is the first flaw there is, in the order of the checks, by the checks in
turn.
-/
theorem fault?_eq_some_iff {diagnostic : Diagnostic}
    : marked.fault? = some diagnostic ↔ marked.Flaw diagnostic := by
  constructor
  · intro fault
    unfold fault? at fault
    split at fault
    · rename_i objection objected
      obtain rfl := Option.some.inj fault
      exact .notAConstructor objected
    · rename_i free
      split at fault
      · rename_i generic
        obtain rfl := Option.some.inj fault
        exact .genericOwner free generic
      · rename_i nominal
        obtain ⟨before, ⟨name, shape⟩, after, listed, found, others⟩ :=
          List.findSome?_eq_some_iff.mp fault
        cases shape with
        | shared => contradiction
        | unsupported written =>
            obtain rfl := Option.some.inj found
            refine .unsupportedParameter free (Bool.eq_false_iff.mpr nominal) listed ?_
            intro parameter member
            have passed := others parameter member
            cases shape : parameter.shape with
            | shared path => exact ⟨path, rfl⟩
            | unsupported => simp [shape] at passed
  · intro flaw
    cases flaw with
    | notAConstructor objected => simp [fault?, objected]
    | genericOwner free generic => simp [fault?, free, generic]
    | unsupportedParameter free nominal listed supported =>
        simp only [fault?, free, nominal, Bool.false_eq_true, if_false]
        refine List.findSome?_eq_some_iff.mpr ⟨_, _, _, listed, rfl, ?_⟩
        intro parameter member
        obtain ⟨path, shared⟩ := supported parameter member
        simp [shared]

/-- No fault is found exactly in declarations of the right shape, by the checks in turn. -/
theorem fault?_eq_none_iff
    : marked.fault? = none ↔ marked.WellShaped := by
  constructor
  · intro plain
    have free : marked.objection = none := by
      cases objected : marked.objection with
      | none => rfl
      | some objection =>
          rw [fault?_eq_some_iff.mpr (.notAConstructor objected)] at plain
          contradiction
    have nominal : marked.ownerIsGeneric = false := by
      by_contra generic
      rw [fault?_eq_some_iff.mpr (.genericOwner free (by simpa using generic))] at plain
      contradiction
    simp only [fault?, free, nominal, Bool.false_eq_true, if_false] at plain
    refine ⟨free, nominal, fun parameter member => ?_⟩
    have passed := List.findSome?_eq_none_iff.mp plain parameter member
    cases shape : parameter.shape with
    | shared path => exact ⟨path, rfl⟩
    | unsupported => simp [shape] at passed
  · intro shaped
    simp only [fault?, shaped.free, shaped.nominal, Bool.false_eq_true, if_false]
    refine List.findSome?_eq_none_iff.mpr fun parameter member => ?_
    obtain ⟨path, shared⟩ := shaped.supported parameter member
    simp [shared]

end Marked

-----------------------------------------------------------------------------------------
-- What a candidate comes to behind others
-----------------------------------------------------------------------------------------

namespace Candidate

/-- The candidate is well shaped, and all its types are known: it stands for the injectable. -/
structure Offers (candidate : Candidate) (injectable : Injectable) : Prop where
  shaped : candidate.marked.WellShaped
  resolved : candidate.injectable? = some injectable

/-- The candidate is the first one behind `before` to offer a type that is not known. -/
structure Accepted (known : List Injectable) (before : List Candidate) (candidate : Candidate)
    (injectable : Injectable)
    : Prop where
  offers : candidate.Offers injectable
  unknown : ∀ earlier ∈ known, earlier.target ≠ injectable.target
  first
    : ∀ other ∈ before, ∀ earlier, other.Offers earlier → earlier.target ≠ injectable.target

/-- The candidate is at fault where it stands behind `before`. A duplicate names the constructor that
is known for its type, or the one accepted for it.
-/
inductive Rejected (known : List Injectable) (before : List Candidate) (candidate : Candidate)
    : Diagnostic → Prop
  | flawed {diagnostic} (flaw : candidate.marked.Flaw diagnostic)
    : Rejected known before candidate diagnostic
  | known {injectable first} (offers : candidate.Offers injectable)
    (found : (known.find? fun earlier => earlier.target = injectable.target) = some first)
    : Rejected known before candidate (Ruling.duplicate candidate.marked injectable.target first)
  | repeated {injectable front other back first} (offers : candidate.Offers injectable)
    (earlier : before = front ++ other :: back) (accepted : Accepted known front other first)
    (same : first.target = injectable.target)
    : Rejected known before candidate (Ruling.duplicate candidate.marked injectable.target first)

/-- An injectable is not accepted behind another one for its type. -/
theorem Accepted.unique_of_append {known : List Injectable} {front between back behind : List Candidate}
    {candidate other : Candidate} {injectable earlier : Injectable}
    (accepted : Accepted known front candidate injectable)
    (acceptedToo : Accepted known (front ++ between) other earlier)
    (arranged : candidate :: back = between ++ other :: behind)
    (same : injectable.target = earlier.target)
    : injectable = earlier := by
  cases between with
  | nil =>
      obtain ⟨rfl, _⟩ := List.cons.inj arranged
      exact Option.some.inj (accepted.offers.resolved.symm.trans acceptedToo.offers.resolved)
  | cons head tail =>
      obtain ⟨rfl, _⟩ := List.cons.inj arranged
      exact absurd same (acceptedToo.first candidate (by simp) injectable accepted.offers)

/-- At most one injectable is accepted for a type. -/
theorem Accepted.unique {known : List Injectable} {front back ahead behind : List Candidate}
    {candidate other : Candidate} {injectable earlier : Injectable}
    (accepted : Accepted known front candidate injectable)
    (acceptedToo : Accepted known ahead other earlier)
    (arranged : front ++ candidate :: back = ahead ++ other :: behind)
    (same : injectable.target = earlier.target)
    : injectable = earlier := by
  rcases List.append_eq_append_iff.mp arranged with ⟨between, rfl, rest⟩ | ⟨between, rfl, rest⟩
  · exact accepted.unique_of_append acceptedToo rest same
  · exact (acceptedToo.unique_of_append accepted rest same.symm).symm

/-- The candidate at the position is at fault, behind those in front of it. -/
def RejectedAt (known : List Injectable) (candidates : List Candidate) (position : Nat)
    (diagnostic : Diagnostic)
    : Prop :=
  ∃ candidate,
    candidates[position]? = some candidate
    ∧ candidate.Rejected known (candidates.take position) diagnostic

end Candidate

-----------------------------------------------------------------------------------------
-- Rulings behind others
-----------------------------------------------------------------------------------------

namespace Ruling

variable {known : List Injectable} {before : List Candidate} {candidate : Candidate}

/-- The injectables that are taken once the candidates are ruled on. -/
def takenAfter (known : List Injectable) (before : List Candidate) : List Injectable :=
  known ++ (all known before).filterMap accepted?

/-- The rulings on later candidates go by what was taken by then, by induction on the earlier ones. -/
theorem all_append (known : List Injectable) (before after : List Candidate)
    : all known (before ++ after) = all known before ++ all (takenAfter known before) after := by
  induction before generalizing known with
  | nil => simp [takenAfter, all]
  | cons candidate rest ih =>
      rw [List.cons_append, takenAfter, all, all]
      cases on known candidate with
      | accepted injectable => simp [ih, takenAfter, accepted?]
      | invalid | deferred => simp [ih, takenAfter, accepted?, List.filterMap_cons]

/-- One more candidate is ruled on after the others. -/
theorem all_append_singleton (known : List Injectable) (before : List Candidate)
    (candidate : Candidate)
    : all known (before ++ [candidate])
      = all known before ++ [on (takenAfter known before) candidate] := by
  rw [all_append, all]
  cases on (takenAfter known before) candidate <;> rfl

/-- It is taken too, if it is accepted. -/
theorem takenAfter_append_singleton (known : List Injectable) (before : List Candidate)
    (candidate : Candidate)
    : takenAfter known (before ++ [candidate])
      = takenAfter known before
        ++ (accepted? (on (takenAfter known before) candidate)).toList := by
  rw [takenAfter, all_append_singleton, List.filterMap_append, ← List.append_assoc, ← takenAfter]
  rfl

/-- Each candidate has one ruling, by induction from the last one on. -/
theorem length_all (known : List Injectable) (candidates : List Candidate)
    : (all known candidates).length = candidates.length := by
  induction candidates using List.reverseRecOn with
  | nil => rfl
  | append_singleton candidates last ih =>
      rw [all_append_singleton, List.length_append, List.length_append, ih]
      rfl

/-- There is one ruling on each candidate: the one behind those in front of it. -/
theorem getElem?_all (known : List Injectable) (candidates : List Candidate) (position : Nat)
    : (all known candidates)[position]?
      = candidates[position]?.map (on (takenAfter known (candidates.take position))) := by
  induction candidates using List.reverseRecOn with
  | nil => simp [all]
  | append_singleton candidates last ih =>
      have counted := length_all known candidates
      rw [all_append_singleton]
      rcases Nat.lt_trichotomy position candidates.length with inside | rfl | outside
      · rw [List.getElem?_append_left (counted ▸ inside), List.getElem?_append_left inside, ih,
          List.take_append_of_le_length (Nat.le_of_lt inside)]
      · simp [← counted]
      · rw [List.getElem?_eq_none (by simp; omega), List.getElem?_eq_none (by simp; omega)]
        rfl

-----------------------------------------------------------------------------------------
-- What is accepted and what is rejected
-----------------------------------------------------------------------------------------

/-- What is taken by then was known, or is offered by a candidate in front; by induction on them. -/
theorem known_or_offered {injectable : Injectable}
    (taken : injectable ∈ takenAfter known before)
    : injectable ∈ known ∨ ∃ other ∈ before, other.Offers injectable := by
  induction before using List.reverseRecOn with
  | nil => exact .inl (by simpa [takenAfter, all] using taken)
  | append_singleton before last ih =>
      rw [takenAfter_append_singleton, List.mem_append] at taken
      rcases taken with taken | taken
      · refine (ih taken).imp_right ?_
        rintro ⟨other, member, offers⟩
        exact ⟨other, List.mem_append_left _ member, offers⟩
      · have decided := decides_on (takenAfter known before) last
        generalize on (takenAfter known before) last = ruling at decided taken
        cases decided with
        | flawed | deferred | duplicate => simp [accepted?] at taken
        | accepted plain resolved =>
            obtain rfl : injectable = _ := by simpa [accepted?] using taken
            exact .inr ⟨last, by simp, Marked.fault?_eq_none_iff.mp plain, resolved⟩

/-- Once a candidate offers a type, that type is taken, by induction on the candidates up to it. -/
theorem exists_taken_of_offers {other : Candidate} {injectable : Injectable}
    (member : other ∈ before) (offers : other.Offers injectable)
    : ∃ earlier ∈ takenAfter known before, earlier.target = injectable.target := by
  induction before using List.reverseRecOn with
  | nil => contradiction
  | append_singleton before last ih =>
      rw [takenAfter_append_singleton]
      rcases List.mem_append.mp member with member | member
      · obtain ⟨earlier, taken, same⟩ := ih member
        exact ⟨earlier, List.mem_append_left _ taken, same⟩
      · obtain rfl := List.mem_singleton.mp member
        have plain := Marked.fault?_eq_none_iff.mpr offers.shaped
        have decided := decides_on (takenAfter known before) other
        generalize on (takenAfter known before) other = ruling at decided
        cases decided with
        | flawed fault => simp [plain] at fault
        | deferred _ unknown => simp [offers.resolved] at unknown
        | @duplicate found first _ resolved earlier same =>
            obtain rfl := Option.some.inj (resolved.symm.trans offers.resolved)
            exact ⟨first, List.mem_append_left _ earlier, same⟩
        | @accepted found _ resolved =>
            obtain rfl := Option.some.inj (resolved.symm.trans offers.resolved)
            exact ⟨found, by simp [accepted?], rfl⟩

/-- A candidate is accepted for what it resolves to, unless its target was taken before. Its target was
taken by an injectable known before, or by one that a candidate in front offers.
-/
theorem on_eq_accepted_iff {injectable : Injectable}
    : on (takenAfter known before) candidate = .accepted injectable
      ↔ candidate.Accepted known before injectable := by
  constructor
  · intro accepted
    have decided := decides_on (takenAfter known before) candidate
    rw [accepted] at decided
    cases decided with
    | accepted plain resolved fresh =>
        refine ⟨⟨Marked.fault?_eq_none_iff.mp plain, resolved⟩, ?_, ?_⟩
        · exact fun earlier member => fresh earlier (List.mem_append_left _ member)
        · intro other member offered offers same
          obtain ⟨earlier, taken, target⟩
              : ∃ earlier ∈ takenAfter known before, earlier.target = offered.target :=
            exists_taken_of_offers member offers
          exact fresh earlier taken (target.trans same)
  · intro accepted
    have plain := Marked.fault?_eq_none_iff.mpr accepted.offers.shaped
    have absent
        : ((takenAfter known before).find? fun earlier => earlier.target = injectable.target)
          = none := by
      refine List.find?_eq_none.mpr fun earlier taken => ?_
      rcases known_or_offered taken with member | ⟨other, member, offers⟩
      · simpa using accepted.unknown earlier member
      · simpa using accepted.first other member earlier offers
    rw [on_eq, plain, accepted.offers.resolved]
    simp only [absent]

/-- What is taken by then was known, or accepted from a candidate in front; by induction on them. -/
theorem mem_takenAfter_iff {injectable : Injectable}
    : injectable ∈ takenAfter known before
      ↔ injectable ∈ known
        ∨ ∃ (front : List Candidate) (other : Candidate) (back : List Candidate),
            before = front ++ other :: back ∧ other.Accepted known front injectable := by
  induction before using List.reverseRecOn with
  | nil => simp [takenAfter, all]
  | append_singleton before last ih =>
      rw [takenAfter_append_singleton, List.mem_append, ih, or_assoc]
      refine or_congr_right ?_
      have decided
          : injectable ∈ (accepted? (on (takenAfter known before) last)).toList
            ↔ last.Accepted known before injectable := by
        rw [← on_eq_accepted_iff]
        cases on (takenAfter known before) last <;> simp [accepted?, eq_comm]
      rw [decided]
      constructor
      · rintro (⟨front, other, back, rfl, accepted⟩ | accepted)
        · exact ⟨front, other, back ++ [last], by simp, accepted⟩
        · exact ⟨before, last, [], rfl, accepted⟩
      · rintro ⟨front, other, back, split, accepted⟩
        rcases List.eq_nil_or_concat back with rfl | ⟨others, final, rfl⟩
        · obtain ⟨rfl, same⟩ := List.append_inj' split rfl
          obtain rfl := List.singleton_inj.mp same
          exact .inr accepted
        · rw [List.concat_eq_append, ← List.cons_append, ← List.append_assoc] at split
          obtain ⟨rfl, _⟩ := List.append_inj' split rfl
          exact .inl ⟨front, other, others, rfl, accepted⟩

/-- Of those taken by then, the first one of a type that was accepted is the only one of the type. -/
theorem find?_takenAfter {front back : List Candidate} {other : Candidate} {first : Injectable}
    (split : before = front ++ other :: back) (accepted : other.Accepted known front first)
    : ((takenAfter known before).find? fun earlier => earlier.target = first.target)
      = some first := by
  have taken : first ∈ takenAfter known before :=
    mem_takenAfter_iff.mpr (.inr ⟨front, other, back, split, accepted⟩)
  cases found : (takenAfter known before).find? fun earlier => earlier.target = first.target with
  | none => simpa using List.find?_eq_none.mp found first taken
  | some earlier =>
      have same : earlier.target = first.target := by simpa using List.find?_some found
      rcases mem_takenAfter_iff.mp (List.mem_of_find?_eq_some found) with
        member | ⟨ahead, another, behind, arranged, acceptedToo⟩
      · exact absurd same (accepted.unknown earlier member)
      · rw [accepted.unique acceptedToo (split.symm.trans arranged) same.symm]

/-- A candidate is invalid if it is rejected, for its shape or as a duplicate. The injectable that a
duplicate names is the first one of its target, among those known before or among candidates in front.
-/
theorem on_eq_invalid_iff {diagnostic : Diagnostic}
    : on (takenAfter known before) candidate = .invalid diagnostic
      ↔ candidate.Rejected known before diagnostic := by
  rw [on_eq]
  constructor
  · intro invalid
    split at invalid
    · rename_i fault
      obtain rfl := Ruling.invalid.inj invalid
      exact .flawed (Marked.fault?_eq_some_iff.mp fault)
    · rename_i plain
      split at invalid
      · contradiction
      · rename_i injectable resolved
        have offers : candidate.Offers injectable :=
          ⟨Marked.fault?_eq_none_iff.mp plain, resolved⟩
        split at invalid
        · rename_i first found
          obtain rfl := Ruling.invalid.inj invalid
          have same : first.target = injectable.target := by simpa using List.find?_some found
          rcases mem_takenAfter_iff.mp (List.mem_of_find?_eq_some found) with
            member | ⟨front, other, back, split, accepted⟩
          · refine .known offers ?_
            rw [takenAfter, List.find?_append] at found
            cases recorded : known.find? fun earlier => earlier.target = injectable.target with
            | none => simpa [same] using List.find?_eq_none.mp recorded first member
            | some earlier => rwa [recorded] at found
          · exact .repeated offers split accepted same
        · contradiction
  · intro rejected
    cases rejected with
    | flawed flaw => rw [Marked.fault?_eq_some_iff.mpr flaw]
    | known offers found =>
        rw [Marked.fault?_eq_none_iff.mpr offers.shaped, offers.resolved]
        simp only [takenAfter, List.find?_append, found, Option.some_or]
    | repeated offers split accepted same =>
        rw [Marked.fault?_eq_none_iff.mpr offers.shaped, offers.resolved]
        simp only [← same, find?_takenAfter split accepted]

/-- The diagnostic at a position is that of the candidate there. -/
theorem diagnostic?_all_iff {candidates : List Candidate} {position : Nat} {diagnostic : Diagnostic}
    : (all known candidates)[position]?.bind diagnostic? = some diagnostic
      ↔ Candidate.RejectedAt known candidates position diagnostic := by
  rw [getElem?_all]
  unfold Candidate.RejectedAt
  cases candidates[position]? with
  | none => simp
  | some candidate =>
      simp only [Option.map_some, Option.bind_some, Option.some.injEq, exists_eq_left',
        ← on_eq_invalid_iff]
      cases on (takenAfter known (candidates.take position)) candidate <;> simp [diagnostic?]

end Ruling

-----------------------------------------------------------------------------------------
-- A whole scan
-----------------------------------------------------------------------------------------

namespace Intake

/-- The candidates that a scan looks at. -/
def lookedAt (processed : List String) (candidates : List Candidate) : List Candidate :=
  candidates.filter fun candidate => !processed.contains candidate.marked.key

/-- A scan fails just when a candidate that it looks at is at fault. It then reports all candidates at
fault, in their order and once each. Or else it takes in an injectable for each candidate whose types
are known, under targets that are new and distinct, and defers all others. The rulings stand beside the
candidates, and a ruling is a complaint just where its candidate is rejected.
-/
theorem ofRulings_exact (processed : List String) (known : List Injectable)
    (candidates : List Candidate)
    : ((∃ diagnostics, ofRulings (rulings processed known candidates) = .error diagnostics)
        ↔ ∃ position diagnostic,
            Candidate.RejectedAt known (lookedAt processed candidates) position diagnostic)
      ∧ (∀ diagnostics,
          ofRulings (rulings processed known candidates) = .error diagnostics
          → ∃ positions : List Nat,
              positions.Pairwise (· < ·)
              ∧ (∀ position,
                  position ∈ positions
                  ↔ ∃ diagnostic,
                      Candidate.RejectedAt known (lookedAt processed candidates) position diagnostic)
              ∧ List.Forall₂ (Candidate.RejectedAt known (lookedAt processed candidates)) positions
                  diagnostics)
      ∧ ∀ intake,
          ofRulings (rulings processed known candidates) = .ok intake
          → intake.accepted = (lookedAt processed candidates).filterMap Candidate.injectable?
            ∧ intake.deferred
              = ((lookedAt processed candidates).filter fun candidate =>
                  candidate.injectable?.isNone).map Candidate.marked
            ∧ (intake.accepted.map Injectable.target).Nodup
            ∧ ∀ injectable ∈ intake.accepted, ∀ earlier ∈ known,
                earlier.target ≠ injectable.target := by
  obtain ⟨positions, ascending, rejected, reported⟩ :=
    exists_positions Ruling.diagnostic? (rulings processed known candidates)
  simp only [rulings, Ruling.diagnostic?_all_iff] at rejected reported
  rw [← lookedAt] at rejected reported
  have fails
      : (Ruling.all known (lookedAt processed candidates)).filterMap Ruling.diagnostic? ≠ []
        ↔ ∃ position diagnostic,
            Candidate.RejectedAt known (lookedAt processed candidates) position diagnostic := by
    rw [← List.length_pos_iff, ← reported.length_eq, List.length_pos_iff_exists_mem]
    exact exists_congr rejected
  refine ⟨?_, ?_, ?_⟩
  · rw [← fails]
    constructor
    · rintro ⟨diagnostics, failed⟩
      obtain ⟨rfl, some⟩ := ofRulings_eq_error_iff.mp failed
      exact some
    · exact fun some => ⟨_, ofRulings_eq_error_iff.mpr ⟨rfl, some⟩⟩
  · intro diagnostics failed
    obtain ⟨rfl, _⟩ := ofRulings_eq_error_iff.mp failed
    exact ⟨positions, ascending, rejected, reported⟩
  · intro intake done
    have takes := takes_of_ofRulings done
    exact ⟨takes.accepted, takes.deferred, takes.distinct, takes.fresh⟩

/-- A constructor of clients. All its types are known if it has no parameters. -/
private def clientConstructor (line : Nat) (parameters : List Parameter) : Candidate where
  marked := {
    location := ⟨⟨"src/m.rs"⟩, line⟩
    home := "crate::m"
    scope := 0
    owner := some (.single "Client")
    ownerIsGeneric := false
    name := "new"
    objection := none
    parameters
  }
  owner := some ⟨"crate::m", "Client"⟩
  parameters := if parameters.isEmpty then some [] else none

/-- Behind a constructor that is handed a name, the second one that is not is a duplicate. -/
theorem ofRulings_exact_clients
    : let clients := [
        clientConstructor 3 [⟨"name", .unsupported "String"⟩],
        clientConstructor 4 [],
        clientConstructor 5 []
      ]
      ∃ diagnostics positions,
        ofRulings (rulings [] [] clients) = .error diagnostics
        ∧ diagnostics.map (·.kind) = [.unsupportedParameter, .duplicateBinding]
        ∧ List.Forall₂ (Candidate.RejectedAt [] (lookedAt [] clients)) positions diagnostics := by
  intro clients
  obtain ⟨_, fails, _⟩ := ofRulings_exact [] [] clients
  have kinds
      : ((rulings [] [] clients).filterMap Ruling.diagnostic?).map (·.kind)
        = [.unsupportedParameter, .duplicateBinding] :=
    rfl
  have failed
      : ofRulings (rulings [] [] clients)
        = .error ((rulings [] [] clients).filterMap Ruling.diagnostic?) :=
    ofRulings_eq_error_iff.mpr ⟨rfl, fun none => by simp [none] at kinds⟩
  obtain ⟨positions, _, _, reported⟩ := fails _ failed
  exact ⟨_, positions, failed, kinds, reported⟩

end Intake

end Wiring
