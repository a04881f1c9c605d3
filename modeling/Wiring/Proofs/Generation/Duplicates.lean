import Wiring.Proofs.Generation.Accounting
import Wiring.Proofs.Index.Footprint

/-! When a declaration is reported as a duplicate. Rounds remember declarations by their keys: one that
has been recorded is passed over from then on, as long as no other declaration has its key, and what
is reported then is the owner of two declarations.
-/

namespace Wiring

/-- The key of the declaration that a diagnostic is about. -/
def Diagnostic.key (diagnostic : Diagnostic) : String :=
  diagnostic.location.text ++ "#" ++ diagnostic.declaration

/-- A recorded declaration stands for the injectable. -/
theorem Turn.Records.injectable?_eq {turn : Turn} {marked : Marked} {injectable : Injectable}
    (records : turn.Records marked injectable)
    : (turn.index.candidate marked).injectable? = some injectable := by
  simp only [Candidate.injectable?, Index.candidate, records.target, records.parameters,
    ← records.constructor, ← records.location]

-----------------------------------------------------------------------------------------
-- Keys of one declaration
-----------------------------------------------------------------------------------------

/-- At most one of the declarations has the key. -/
def Index.Unshared (index : Index) (key : String) : Prop :=
  index.marked.countP (fun marked => marked.key = key) ≤ 1

instance (index : Index) (key : String) : Decidable (index.Unshared key) :=
  inferInstanceAs (Decidable (_ ≤ _))

namespace Index.Unshared

variable {index : Index} {marked other : Marked}

/-- Of two declarations, one behind the other, at most one has the key. -/
theorem key_ne_of_sublist (unshared : index.Unshared marked.key)
    (order : [other, marked].Sublist index.marked)
    : other.key ≠ marked.key := by
  intro same
  have both := order.countP_le (p := fun declaration => decide (declaration.key = marked.key))
  rw [List.countP_cons_of_pos (by simp [same]), List.countP_cons_of_pos (by simp)] at both
  have atMost : index.marked.countP (fun declaration => declaration.key = marked.key) ≤ 1 :=
    unshared
  omega

/-- The declarations with the key are one. -/
theorem eq_of_key_eq (unshared : index.Unshared marked.key) (present : marked ∈ index.marked)
    (among : other ∈ index.marked) (same : other.key = marked.key)
    : other = marked := by
  by_contra differs
  obtain ⟨front, back, split⟩ := List.append_of_mem present
  have elsewhere : other ∈ front ∨ other ∈ back := by
    rw [split, List.mem_append, List.mem_cons] at among
    tauto
  rcases elsewhere with before | behind
  · refine unshared.key_ne_of_sublist ?_ same
    rw [split]
    exact (List.singleton_sublist.mpr before).append (List.singleton_sublist.mpr List.mem_cons_self)
  · refine (same ▸ unshared : index.Unshared other.key).key_ne_of_sublist ?_ same.symm
    rw [split]
    exact ((List.singleton_sublist.mpr behind).cons_cons marked).trans
      (List.sublist_append_right front _)

end Index.Unshared

-----------------------------------------------------------------------------------------
-- Recorded declarations
-----------------------------------------------------------------------------------------

/-- A round is done with a declaration unless it leaves one under the same key unresolved. -/
theorem Turn.Follows.processed_of_resolved {turn : Turn} {generation : Generation}
    {declarations more : List Marked} (follows : turn.Follows generation)
    (grown : turn.index.marked = declarations ++ more)
    (objected : ∀ later ∈ more, later.objection.isSome = true) {marked : Marked}
    (present : marked ∈ declarations)
    (resolved
      : ∀ other ∈ generation.unsettled declarations,
          other.key = marked.key → (turn.index.candidate other).injectable? ≠ none)
    : marked.key ∈ (turn.next generation).processed := by
  have known : marked.key ∈ turn.index.marked.map Marked.key := by
    rw [grown]
    exact List.mem_map_of_mem (List.mem_append_left more present)
  refine Turn.mem_processed_next.mpr ⟨known, fun deferred => ?_⟩
  obtain ⟨other, left, same⟩ := List.mem_map.mp deferred
  rw [follows.deferred_eq grown objected] at left
  obtain ⟨unsettled, unresolved⟩ := List.mem_filter.mp left
  exact resolved other unsettled same (Option.isNone_iff_eq_none.mp unresolved)

/-- A round does not look again at what was recorded under a key of its own. -/
theorem Turn.Follows.processed_of_processed {turn : Turn} {generation : Generation}
    {declarations more : List Marked} (follows : turn.Follows generation)
    (grown : turn.index.marked = declarations ++ more)
    (objected : ∀ later ∈ more, later.objection.isSome = true) {marked : Marked}
    (present : marked ∈ declarations) (processed : marked.key ∈ generation.processed)
    : marked.key ∈ (turn.next generation).processed := by
  refine follows.processed_of_resolved grown objected present fun other unsettled same => ?_
  exact absurd (same ▸ processed) (Generation.mem_unsettled.mp unsettled).2

/-- A round that records a declaration under a key of its own is done with it. -/
theorem Turn.Follows.processed_of_records {turn : Turn} {generation : Generation} {start : Index}
    {more : List Marked} (follows : turn.Follows generation)
    (grown : turn.index.marked = start.marked ++ more)
    (objected : ∀ later ∈ more, later.objection.isSome = true) {marked : Marked}
    (unshared : start.Unshared marked.key) (present : marked ∈ start.marked)
    {injectable : Injectable} (records : turn.Records marked injectable)
    : marked.key ∈ (turn.next generation).processed := by
  refine follows.processed_of_resolved grown objected present fun other unsettled same => ?_
  obtain rfl := unshared.eq_of_key_eq present (Generation.mem_unsettled.mp unsettled).1 same
  simp [records.injectable?_eq]

/-- What has been recorded under a key of its own is passed over, by induction on the rounds. -/
theorem Course.processed_of_records {settings : Settings} {start index : Index}
    {turns : List Turn} {generation : Generation}
    (course : Course settings start turns index generation) {marked : Marked}
    (unshared : start.Unshared marked.key) (present : marked ∈ start.marked) {turn : Turn}
    (member : turn ∈ turns) {injectable : Injectable} (records : turn.Records marked injectable)
    : marked.key ∈ generation.processed := by
  induction course with
  | start => simp at member
  | turn before follows _ ih =>
      obtain ⟨more, grown, objected⟩ := before.grown.marked
      rcases List.mem_append.mp member with member | member
      · exact follows.processed_of_processed grown objected present (ih member)
      · obtain rfl := List.mem_singleton.mp member
        exact follows.processed_of_records grown objected unshared present records

-----------------------------------------------------------------------------------------
-- Reported declarations
-----------------------------------------------------------------------------------------

/-- Whether there is nothing wrong with the form of the declaration. -/
def Marked.isPlain (marked : Marked) : Bool :=
  marked.fault?.isNone

/-- The plain declarations are those of the start. -/
theorem Marked.filter_isPlain {all declarations more : List Marked}
    (grown : all = declarations ++ more)
    (objected : ∀ later ∈ more, later.objection.isSome = true)
    : all.filter isPlain = declarations.filter isPlain := by
  have flawed : more.filter isPlain = [] := by
    refine List.filter_eq_nil_iff.mpr fun later member plain => ?_
    exact fault?_of_objection (objected later member) (Option.isNone_iff_eq_none.mp plain)
  rw [grown, List.filter_append, flawed, List.append_nil]

/-- A reported duplicate is a declaration of the start that is still looked at. Its owner resolves to
the target of an injectable that was accepted before, or of a declaration in front of it. What comes in
with factories is objected to, so what is looked at without an objection stands in the start, in the
same order.
-/
theorem Course.exists_of_reported {settings : Settings} {start last : Index} {turns : List Turn}
    {generation : Generation} (course : Course settings start turns last generation)
    {diagnostics : List Diagnostic} {diagnostic : Diagnostic}
    (invalid
      : Intake.ofRulings
          (Intake.rulings generation.processed generation.injectables last.candidates)
        = .error diagnostics)
    (reported : diagnostic ∈ diagnostics) (kind : diagnostic.kind = .duplicateBinding)
    : ∃ marked ∈ generation.unsettled start.marked, ∃ target first,
        diagnostic = Ruling.duplicate marked target first
        ∧ last.ownerType? marked = some target
        ∧ first.target = target
        ∧ (first ∈ generation.injectables
          ∨ ∃ other,
              [other, marked].Sublist start.marked
              ∧ (last.candidate other).injectable? = some first) := by
  obtain ⟨more, grown, objected⟩ := course.grown.marked
  rw [Intake.eq_of_ofRulings_eq_error invalid] at reported
  obtain ⟨front, candidate, back, injectable, first, split, plain, resolved, rfl, same, source⟩ :=
    Ruling.exists_of_mem_diagnostics reported kind
  rw [generation.filter_candidates last] at split
  obtain ⟨before, rest, order, rfl, tail⟩ := List.map_eq_append_iff.mp split
  obtain ⟨marked, after, rfl, rfl, _⟩ := List.map_eq_cons_iff.mp tail
  have plain : marked.isPlain = true := Option.isNone_iff_eq_none.mpr plain
  -- What is plain and looked at stands in the start, in the same order.
  have started {declarations : List Marked} (looked : declarations.Sublist last.marked)
      (plain : ∀ declaration ∈ declarations, declaration.isPlain = true)
      : declarations.Sublist start.marked := by
    have kept := looked.filter Marked.isPlain
    rw [List.filter_eq_self.mpr plain, Marked.filter_isPlain grown objected] at kept
    exact kept.trans List.filter_sublist
  have looked : (before ++ marked :: after).Sublist last.marked := order ▸ List.filter_sublist
  have unsettled : marked ∈ generation.unsettled last.marked := by simp [order]
  have present : marked ∈ start.marked := by
    refine List.singleton_sublist.mp (started ?_ (by simpa using plain))
    exact List.singleton_sublist.mpr (List.mem_of_mem_filter unsettled)
  refine ⟨marked, ?_, injectable.target, first, rfl, (Candidate.injectable?_eq_some resolved).1, same,
    source.imp_right ?_⟩
  · exact Generation.mem_unsettled.mpr ⟨present, (Generation.mem_unsettled.mp unsettled).2⟩
  · rintro ⟨_, inFront, plainOther, resolvedOther⟩
    obtain ⟨other, inBefore, rfl⟩ := List.mem_map.mp inFront
    refine ⟨other, started (List.Sublist.trans ?_ looked) ?_, resolvedOther⟩
    · exact (List.singleton_sublist.mpr inBefore).append
        (List.singleton_sublist.mpr List.mem_cons_self)
    · have plainOther : other.isPlain = true := Option.isNone_iff_eq_none.mpr plainOther
      simp [plain, plainOther]

namespace Workplace

variable {σ : Type} {write : Writer σ} {settings : Settings} {index : Index} {store : σ}

/-- A reported duplicate whose key no other declaration has is no duplicate of itself: another marked
declaration, with another key, has an owner that resolved to the same target, in the round that reports
or in one before it, and is the one that the report names. The other declaration was recorded in an
earlier round, or comes first in this one; one key would have kept it from being looked at twice.
-/
theorem run_duplicate_genuine {diagnostics : List Diagnostic} {diagnostic : Diagnostic}
    (accepts : ¬ Refuses write (.invalid diagnostics))
    (failed : (run write ⟨{ settings }, index, store⟩).result = .error (.invalid diagnostics))
    (reported : diagnostic ∈ diagnostics) (kind : diagnostic.kind = .duplicateBinding)
    (unshared : index.Unshared diagnostic.key)
    : ∃ turns last generation,
        Course settings index turns last generation
        ∧ ∃ marked ∈ index.marked, ∃ other ∈ index.marked, ∃ target first,
          diagnostic = Ruling.duplicate marked target first
          ∧ first.constructor = other.name
          ∧ first.location = other.location
          ∧ other.key ≠ marked.key
          ∧ last.ownerType? marked = some target
          ∧ ∃ table,
              (table = last ∨ ∃ turn ∈ turns, turn.index = table)
              ∧ table.ownerType? other = some target := by
  obtain ⟨turns, last, generation, course, invalid⟩ := run_eq_invalid accepts failed
  obtain ⟨marked, unsettled, target, first, rfl, owner, same, source⟩ :=
    course.exists_of_reported invalid reported kind
  obtain ⟨present, unprocessed⟩ := Generation.mem_unsettled.mp unsettled
  refine ⟨turns, last, generation, course, marked, present, ?_⟩
  rcases source with recorded | ⟨other, order, resolved⟩
  · -- An earlier round recorded the other declaration, while this one is still looked at.
    have accepted := course.kept.injectables.mem_iff.mp recorded
    obtain ⟨turn, member, accepted⟩ := List.mem_flatMap.mp accepted
    obtain ⟨_, _, _, earlier, follows⟩ := course.of_mem member
    obtain ⟨_, grown, objected⟩ := earlier.grown.marked
    obtain ⟨other, unsettled, records⟩ := follows.exists_records grown objected accepted
    have among : other ∈ index.marked := (Generation.mem_unsettled.mp unsettled).1
    refine ⟨other, among, target, first, rfl, records.constructor, records.location, ?_, owner,
      turn.index, .inr ⟨turn, member, rfl⟩, same ▸ records.target⟩
    intro shared
    obtain rfl := unshared.eq_of_key_eq present among shared
    exact unprocessed (course.processed_of_records unshared present member records)
  · -- The other declaration comes before this one in the same round.
    obtain ⟨ownerOther, _, constructor, location⟩ := Candidate.injectable?_eq_some resolved
    have among : other ∈ index.marked := order.subset (by simp)
    exact ⟨other, among, target, first, rfl, constructor, location,
      unshared.key_ne_of_sublist order, owner, last, .inl rfl, same ▸ ownerOther⟩

/-- Two constructors of one type, one line below the other. -/
def twoConstructors : Index := {
  marker := "inject"
  scopes := [⟨"crate::m", []⟩]
  declared := ["crate::m::Socket"]
  modules := ["crate::m", "crate"]
  marked := [constructorOf "Socket" [] 3, { constructorOf "Socket" [] 4 with name := "open" }]
  files := [⟨"src/m.rs"⟩]
}

/-- Witness: the second of two constructors is reported, and the first one has another key. -/
theorem run_duplicate_genuine_twoConstructors
    : ∃ diagnostic,
        (run MemoryStore.write ⟨{ settings := {} }, twoConstructors, {}⟩).result
          = .error (.invalid [diagnostic])
        ∧ diagnostic.key = "src/m.rs:4#Socket::open"
        ∧ ∃ other ∈ twoConstructors.marked, other.key ≠ diagnostic.key := by
  let diagnostic : Diagnostic :=
    ⟨.duplicateBinding, ⟨⟨"src/m.rs"⟩, 4⟩, "Socket::open",
      "crate::m::Socket already has an injectable constructor `new` at src/m.rs:3"⟩
  have failed : (run MemoryStore.write ⟨{ settings := {} }, twoConstructors, {}⟩).result
      = .error (.invalid [diagnostic]) := by
    decide +kernel
  have accepts : ¬ Refuses MemoryStore.write (.invalid [diagnostic]) := by
    rintro ⟨store, artifact, refused⟩
    contradiction
  obtain ⟨_, _, _, _, marked, _, other, among, _, _, same, _, _, apart, _⟩ :=
    run_duplicate_genuine accepts failed (List.mem_singleton.mpr rfl) rfl (by decide +kernel)
  refine ⟨diagnostic, failed, by decide +kernel, other, among, ?_⟩
  rw [same]
  exact apart

/-- The constructor of the type `S` of a module in the first line of the crate. -/
private def constructorOfModule (home : String) (scope : Nat) (parameters : List Parameter) : Marked :=
  { constructorOf "S" parameters 1 with location := ⟨⟨"src/lib.rs"⟩, 1⟩, home, scope }

/-- Two modules in one line, each with a type of the same name; one is made of the factory of the
other.
-/
def twoModulesInOneLine : Index := {
  marker := "inject"
  scopes := [
    ⟨"crate", []⟩,
    ⟨"crate::x", []⟩,
    ⟨"crate::y", [.named "Arc" ⟨false, ["std", "sync", "Arc"]⟩,
      .named "SFactory" ⟨false, ["crate", "x", "SFactory"]⟩]⟩
  ]
  declared := ["crate::x::S", "crate::y::S"]
  modules := ["crate", "crate::x", "crate", "crate::y", "crate"]
  marked := [
    constructorOfModule "crate::x" 1 [],
    constructorOfModule "crate::y" 2 [⟨"maker", .shared (.single "SFactory")⟩]
  ]
  files := [⟨"src/lib.rs"⟩]
}

/-- The descriptor of the first of two types in one line. -/
private def firstOfTwo : Injectable :=
  ⟨⟨"crate::x", "S"⟩, "new", [], ⟨⟨"src/lib.rs"⟩, 1⟩⟩

/-- The first round records the first constructor and leaves the second one. -/
private def firstOfTwoRecorded : Generation := {
  settings := {}
  injectables := [firstOfTwo]
  deferred := [constructorOfModule "crate::y" 2 [⟨"maker", .shared (.single "SFactory")⟩]]
  rounds := 1
}

/-- Its factory. -/
private def firstOfTwoFactory : Artifact :=
  (Emission.factory? firstOfTwo).getD default

/-- The index that the second round finds. -/
private def twoModulesAndFactory : Index :=
  twoModulesInOneLine.addParsed firstOfTwoFactory.source.path firstOfTwoFactory.source.home
    ((Source.Grammar.items? (Emission.factoryTokens firstOfTwo)).getD [])

/-- The index takes the factory in. -/
private theorem add_firstOfTwoFactory
    : twoModulesInOneLine.add firstOfTwoFactory.source = .ok twoModulesAndFactory := by
  obtain ⟨factory, made⟩ := Option.isSome_iff_exists.mp
    (show (Emission.factory? firstOfTwo).isSome = true by decide +kernel)
  obtain ⟨items, read⟩ := Option.isSome_iff_exists.mp
    (show (Source.Grammar.items? (Emission.factoryTokens firstOfTwo)).isSome = true by
      decide +kernel)
  have same : firstOfTwoFactory = factory := by rw [firstOfTwoFactory, made, Option.getD_some]
  rw [twoModulesAndFactory, same, Index.add_factory _ made read, read, Option.getD_some]

/-- The second round finds the constructor of the first one again, since it shares its key with one
that was deferred.
-/
private theorem run_twoModulesInOneLine
    : (run MemoryStore.write ⟨{ settings := {} }, twoModulesInOneLine, {}⟩).result
      = .error (.invalid
          [Ruling.duplicate (constructorOfModule "crate::x" 1 []) ⟨"crate::x", "S"⟩ firstOfTwo]) := by
  have first
      : (Workplace.round MemoryStore.write ⟨{ settings := {} }, twoModulesInOneLine, {}⟩).result
        = .ok ⟨[firstOfTwoFactory], firstOfTwoRecorded.deferred⟩ := by
    decide +kernel
  have state
      : (Workplace.round MemoryStore.write
          ⟨{ settings := {} }, twoModulesInOneLine, {}⟩).state.generation
        = firstOfTwoRecorded := by
    decide +kernel
  exact run_eq_error_of_second (by decide) first (by decide) state add_firstOfTwoFactory
    (by decide +kernel)

/-- The first constructor is recorded in one round and reported as a duplicate of itself in the next,
for the second one, which was deferred, has the same key. The owner of no other declaration ever
resolves to its target. The other declaration stands in another scope, where its owner is declared
beside it in every round.
-/
theorem run_duplicate_of_itself
    : ∃ diagnostic marked target first,
        (run MemoryStore.write ⟨{ settings := {} }, twoModulesInOneLine, {}⟩).result
          = .error (.invalid [diagnostic])
        ∧ marked ∈ twoModulesInOneLine.marked
        ∧ diagnostic = Ruling.duplicate marked target first
        ∧ ∀ turns table generation, Course {} twoModulesInOneLine turns table generation
          → ∀ other ∈ twoModulesInOneLine.marked, other ≠ marked
            → table.ownerType? other ≠ some target := by
  refine ⟨_, constructorOfModule "crate::x" 1 [], ⟨"crate::x", "S"⟩, firstOfTwo,
    run_twoModulesInOneLine, List.mem_cons_self, rfl, ?_⟩
  intro turns table generation course other present differs resolved
  obtain rfl := List.mem_singleton.mp ((List.mem_cons.mp present).resolve_left differs)
  have here : table.scopes[2]? = twoModulesInOneLine.scopes[2]? := by
    rw [course.grown.scopes]
    rfl
  have declared : table.declares (Segments.within "crate::y" "S") = true := by
    refine List.contains_iff_mem.mpr ?_
    rw [course.grown.declared]
    exact List.mem_append_left _ (by decide +kernel)
  have found : table.ownerType? (constructorOfModule "crate::y" 2
        [⟨"maker", .shared (.single "SFactory")⟩])
      = TypeName.parse? (Segments.within "crate::y" "S") := by
    rw [Index.ownerType?]
    simp only [constructorOfModule, constructorOf, here]
    exact Index.resolve?_of_beside (by decide) declared
  rw [found] at resolved
  exact absurd resolved (by decide +kernel)

end Workplace

end Wiring
