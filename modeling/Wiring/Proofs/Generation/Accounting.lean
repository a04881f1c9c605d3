import Mathlib.Data.List.Perm.Basic
import Wiring.Proofs.Generation.Course
import Wiring.Proofs.OrderedInsertion
import Wiring.Store.Memory

/-! What becomes of the marked declarations over a run. Each round records some of those that are
still open and leaves the others open, so at every time all of them are accounted for, each once;
and a run that succeeds leaves none open.
-/

namespace Wiring

-----------------------------------------------------------------------------------------
-- Open declarations
-----------------------------------------------------------------------------------------

/-- A marked declaration as the index sees it. -/
def Index.candidate (index : Index) (marked : Marked) : Candidate :=
  ⟨marked, index.ownerType? marked, index.parameterTypes? marked⟩

/-- Those of the declarations that the next round looks at. -/
def Generation.unsettled (generation : Generation) (declarations : List Marked) : List Marked :=
  declarations.filter fun marked => !generation.processed.contains marked.key

/-- The candidates that the next round looks at. -/
theorem Generation.filter_candidates (generation : Generation) (index : Index)
    : (index.candidates.filter fun candidate =>
          !generation.processed.contains candidate.marked.key)
        = (generation.unsettled index.marked).map index.candidate := by
  rw [Index.candidates, List.filter_map]
  rfl

/-- The round has recorded the declaration as the injectable, with the types that its index answered.
-/
structure Turn.Records (turn : Turn) (marked : Marked) (injectable : Injectable) : Prop where
  accepted : injectable ∈ turn.intake.accepted
  constructor : injectable.constructor = marked.name
  location : injectable.location = marked.location
  target : turn.index.ownerType? marked = some injectable.target
  parameters : turn.index.parameterTypes? marked = some injectable.parameters

/-- What is objected to is at fault. -/
theorem Marked.fault?_of_objection {marked : Marked} (objected : marked.objection.isSome = true)
    : marked.fault? ≠ none := by
  obtain ⟨objection, same⟩ := Option.isSome_iff_exists.mp objected
  simp [Marked.fault?, same]

namespace Turn.Follows

variable {turn : Turn} {generation : Generation} {declarations more : List Marked}

/-- What a turn takes in is decided on the candidates that have not been processed. -/
theorem takes (follows : turn.Follows generation)
    : Intake.Takes generation.injectables
        (turn.index.candidates.filter fun candidate =>
          !generation.processed.contains candidate.marked.key)
        turn.intake :=
  Intake.takes_of_ofRulings follows.ruled

/-- What has come in with factories is objected to, so no valid round looks at it. -/
theorem candidates_eq (follows : turn.Follows generation)
    (marked : turn.index.marked = declarations ++ more)
    (objected : ∀ later ∈ more, later.objection.isSome = true)
    : (turn.index.candidates.filter fun candidate =>
          !generation.processed.contains candidate.marked.key)
        = (generation.unsettled declarations).map turn.index.candidate := by
  have split := generation.filter_candidates turn.index
  have skipped : generation.unsettled more = [] := by
    refine List.filter_eq_nil_iff.mpr fun later member unsettled => ?_
    have found : later ∈ generation.unsettled turn.index.marked := by
      rw [marked]
      exact List.mem_filter.mpr ⟨List.mem_append_right _ member, unsettled⟩
    have candidate : turn.index.candidate later
        ∈ (generation.unsettled turn.index.marked).map turn.index.candidate :=
      List.mem_map_of_mem found
    rw [← split] at candidate
    exact Marked.fault?_of_objection (objected later member) (follows.takes.plain _ candidate)
  have unsettled : generation.unsettled turn.index.marked = generation.unsettled declarations := by
    rw [marked, Generation.unsettled, List.filter_append]
    exact (congrArg _ skipped).trans (List.append_nil _)
  rw [split, unsettled]

/-- A round records the open declarations whose types its index answers. -/
theorem accepted_eq (follows : turn.Follows generation)
    (marked : turn.index.marked = declarations ++ more)
    (objected : ∀ later ∈ more, later.objection.isSome = true)
    : turn.intake.accepted
      = (generation.unsettled declarations).filterMap fun marked =>
          (turn.index.candidate marked).injectable? := by
  rw [follows.takes.accepted, follows.candidates_eq marked objected, List.filterMap_map]
  rfl

/-- A round defers all other open declarations. -/
theorem deferred_eq (follows : turn.Follows generation)
    (marked : turn.index.marked = declarations ++ more)
    (objected : ∀ later ∈ more, later.objection.isSome = true)
    : turn.intake.deferred
      = (generation.unsettled declarations).filter fun marked =>
          (turn.index.candidate marked).injectable?.isNone := by
  rw [follows.takes.deferred, follows.candidates_eq marked objected, List.filter_map, List.map_map]
  exact List.map_id _

/-- A round records an open declaration whose types its index answers. -/
theorem records_of_injectable? (follows : turn.Follows generation)
    (marked : turn.index.marked = declarations ++ more)
    (objected : ∀ later ∈ more, later.objection.isSome = true) {declaration : Marked}
    (unsettled : declaration ∈ generation.unsettled declarations) {injectable : Injectable}
    (resolved : (turn.index.candidate declaration).injectable? = some injectable)
    : turn.Records declaration injectable := by
  obtain ⟨target, parameters, constructor, location⟩ := Candidate.injectable?_eq_some resolved
  refine ⟨?_, constructor, location, target, parameters⟩
  rw [follows.accepted_eq marked objected]
  exact List.mem_filterMap.mpr ⟨declaration, unsettled, resolved⟩

/-- The open declarations whose types the index answers are recorded in order. -/
theorem forall₂_records (follows : turn.Follows generation)
    (marked : turn.index.marked = declarations ++ more)
    (objected : ∀ later ∈ more, later.objection.isSome = true)
    : List.Forall₂ turn.Records
        ((generation.unsettled declarations).filter fun marked =>
          (turn.index.candidate marked).injectable?.isSome)
        turn.intake.accepted := by
  rw [follows.accepted_eq marked objected]
  refine forall₂_filterMap fun declaration unsettled injectable resolved => ?_
  exact follows.records_of_injectable? marked objected unsettled resolved

/-- What a round has recorded, it recorded for a declaration that was open. -/
theorem exists_records (follows : turn.Follows generation)
    (marked : turn.index.marked = declarations ++ more)
    (objected : ∀ later ∈ more, later.objection.isSome = true) {injectable : Injectable}
    (accepted : injectable ∈ turn.intake.accepted)
    : ∃ declaration ∈ generation.unsettled declarations, turn.Records declaration injectable := by
  rw [follows.accepted_eq marked objected] at accepted
  obtain ⟨declaration, unsettled, resolved⟩ := List.mem_filterMap.mp accepted
  exact ⟨declaration, unsettled,
    follows.records_of_injectable? marked objected unsettled resolved⟩

/-- An open declaration is recorded or deferred. -/
theorem records_or_defers (follows : turn.Follows generation)
    (marked : turn.index.marked = declarations ++ more)
    (objected : ∀ later ∈ more, later.objection.isSome = true) {declaration : Marked}
    (unsettled : declaration ∈ generation.unsettled declarations)
    : (∃ injectable, turn.Records declaration injectable) ∨ declaration ∈ turn.intake.deferred := by
  cases resolved : (turn.index.candidate declaration).injectable? with
  | none =>
      rw [follows.deferred_eq marked objected]
      exact .inr (List.mem_filter.mpr ⟨unsettled, by simp [resolved]⟩)
  | some injectable =>
      refine .inl ⟨injectable, follows.records_of_injectable? marked objected unsettled resolved⟩

end Turn.Follows

/-- A round passes over the keys it has come across, without those of what it defers. -/
theorem Turn.mem_processed_next {turn : Turn} {generation : Generation} {key : String}
    : key ∈ (turn.next generation).processed
      ↔ key ∈ turn.index.marked.map Marked.key ∧ key ∉ turn.intake.deferred.map Marked.key := by
  have keys : turn.index.candidates.map (·.marked.key) = turn.index.marked.map Marked.key := by
    rw [Index.candidates, List.map_map]
    rfl
  rw [Turn.next, Generation.settle, Generation.settledKeys, keys]
  simp [List.contains_eq_mem]

/-- A declaration is unsettled if it is there and has not been processed. -/
theorem Generation.mem_unsettled {generation : Generation} {declarations : List Marked}
    {marked : Marked}
    : marked ∈ generation.unsettled declarations
      ↔ marked ∈ declarations ∧ marked.key ∉ generation.processed := by
  simp [Generation.unsettled, List.contains_eq_mem]

/-- The next round looks at the declarations that share a key with one deferred now. -/
theorem Turn.mem_unsettled_next {turn : Turn} {generation : Generation}
    {declarations more : List Marked} (marked : turn.index.marked = declarations ++ more)
    {declaration : Marked}
    : declaration ∈ (turn.next generation).unsettled declarations
      ↔ declaration ∈ declarations
        ∧ declaration.key ∈ turn.intake.deferred.map Marked.key := by
  rw [Generation.mem_unsettled, Turn.mem_processed_next, marked]
  have known (present : declaration ∈ declarations)
      : declaration.key ∈ (declarations ++ more).map Marked.key :=
    List.mem_map_of_mem (List.mem_append_left more present)
  constructor
  · rintro ⟨present, open_⟩
    exact ⟨present, not_not.mp fun passed => open_ ⟨known present, passed⟩⟩
  · rintro ⟨present, shared⟩
    exact ⟨present, fun passed => passed.2 shared⟩

/-- The next round goes on with what is deferred now, where keys tell the declarations apart. A key
that is deferred is the key of one declaration, and the keys that are not are done with.
-/
theorem Turn.Follows.unsettled_next {turn : Turn} {generation : Generation}
    {declarations more : List Marked} (follows : turn.Follows generation)
    (marked : turn.index.marked = declarations ++ more)
    (objected : ∀ later ∈ more, later.objection.isSome = true)
    (distinct : (declarations.map Marked.key).Nodup)
    : (turn.next generation).unsettled declarations = turn.intake.deferred := by
  have deferred := follows.deferred_eq marked objected
  rw [Generation.unsettled, List.filter_filter] at deferred
  rw [deferred]
  refine List.filter_congr fun declaration present => Bool.eq_iff_iff.mpr ?_
  have alone : declaration.key ∈ turn.intake.deferred.map Marked.key
      ↔ declaration ∈ turn.intake.deferred := by
    refine ⟨fun shared => ?_, List.mem_map_of_mem⟩
    obtain ⟨other, left, same⟩ := List.mem_map.mp shared
    have known : other ∈ declarations := List.mem_of_mem_filter (deferred ▸ left)
    exact List.inj_on_of_nodup_map distinct present known same.symm ▸ left
  calc (!(turn.next generation).processed.contains declaration.key) = true
    _ ↔ declaration ∈ (turn.next generation).unsettled declarations := by
        simp [Generation.unsettled, present]
    _ ↔ declaration ∈ turn.intake.deferred := by
        rw [Turn.mem_unsettled_next marked, alone]
        exact and_iff_right present
    _ ↔ _ := by
        rw [deferred, List.mem_filter]
        exact and_iff_right present

-----------------------------------------------------------------------------------------
-- Recorded injectables
-----------------------------------------------------------------------------------------

namespace Generation

/-- Injectables of new targets are added to those that were accepted before. -/
theorem foldl_accept_perm {accepted : List Injectable} {generation : Generation}
    (fresh
      : ∀ injectable ∈ accepted, ∀ earlier ∈ generation.injectables,
          earlier.target ≠ injectable.target)
    (distinct : (accepted.map Injectable.target).Nodup)
    : (accepted.foldl accept generation).injectables.Perm (generation.injectables ++ accepted) := by
  induction accepted generalizing generation with
  | nil => simp
  | cons injectable rest ih =>
      obtain ⟨apart, distinct⟩ := List.nodup_cons.mp distinct
      have inserted
          : (generation.accept injectable).injectables.Perm (injectable :: generation.injectables) := by
        rw [accept, Injectable.insertInto_eq_insertBy]
        exact Ascending.insertBy_perm (fresh injectable (by simp))
      have freshRest : ∀ later ∈ rest, ∀ earlier ∈ (generation.accept injectable).injectables,
          earlier.target ≠ later.target := by
        intro later member earlier known same
        rcases List.mem_cons.mp (inserted.mem_iff.mp known) with rfl | known
        · exact apart (List.mem_map.mpr ⟨later, member, same.symm⟩)
        · exact fresh later (List.mem_cons_of_mem injectable member) earlier known same
      rw [List.foldl_cons]
      exact (ih freshRest distinct).trans
        ((inserted.append_right rest).trans List.perm_middle.symm)

end Generation

/-- A round adds what it has accepted. -/
theorem Turn.Follows.injectables_perm {turn : Turn} {generation : Generation}
    (follows : turn.Follows generation)
    : (turn.next generation).injectables.Perm (generation.injectables ++ turn.intake.accepted) :=
  Generation.foldl_accept_perm follows.takes.fresh follows.takes.distinct

/-- The rounds so far have recorded the injectables of the generation, each under a target of its own.
-/
structure Kept (turns : List Turn) (generation : Generation) : Prop where
  injectables : generation.injectables.Perm (turns.flatMap (·.intake.accepted))
  distinct : (generation.injectables.map Injectable.target).Nodup

/-- One round keeps what was accepted before and adds targets that are new. -/
theorem Kept.next {turns : List Turn} {turn : Turn} {generation : Generation}
    (kept : Kept turns generation) (follows : turn.Follows generation)
    : Kept (turns ++ [turn]) (turn.next generation) where
  injectables := by
    rw [List.flatMap_append, List.flatMap_singleton]
    exact follows.injectables_perm.trans (kept.injectables.append_right _)
  distinct := by
    refine (follows.injectables_perm.map Injectable.target).nodup_iff.mpr ?_
    rw [List.map_append]
    refine kept.distinct.append follows.takes.distinct ?_
    intro target earlier later
    obtain ⟨known, member, rfl⟩ := List.mem_map.mp earlier
    obtain ⟨injectable, accepted, same⟩ := List.mem_map.mp later
    exact follows.takes.fresh injectable accepted known member same.symm

/-- Where declarations stand after some rounds: those that are settled have been recorded, each once,
and the next round looks at all others.
-/
def Accounted (declarations : List Marked) (turns : List Turn) (generation : Generation) : Prop :=
  ∃ settled,
    (settled ++ generation.unsettled declarations).Perm declarations
    ∧ List.Forall₂ (fun marked injectable => ∃ turn ∈ turns, turn.Records marked injectable) settled
        (turns.flatMap (·.intake.accepted))

/-- One round settles the open declarations that it records. -/
theorem Accounted.next {turns : List Turn} {turn : Turn} {generation : Generation}
    {declarations more : List Marked} (accounted : Accounted declarations turns generation)
    (follows : turn.Follows generation) (marked : turn.index.marked = declarations ++ more)
    (objected : ∀ later ∈ more, later.objection.isSome = true)
    (distinct : (declarations.map Marked.key).Nodup)
    : Accounted declarations (turns ++ [turn]) (turn.next generation) := by
  obtain ⟨settled, shared, recorded⟩ := accounted
  let resolves (marked : Marked) : Bool := (turn.index.candidate marked).injectable?.isSome
  refine ⟨settled ++ (generation.unsettled declarations).filter resolves, ?_, ?_⟩
  · rw [follows.unsettled_next marked objected distinct, follows.deferred_eq marked objected,
      List.append_assoc]
    refine List.Perm.trans (List.Perm.append_left settled ?_) shared
    simpa [resolves] using List.filter_append_perm resolves (generation.unsettled declarations)
  · rw [List.flatMap_append, List.flatMap_singleton]
    refine List.rel_append (recorded.imp ?_)
      ((follows.forall₂_records marked objected).imp ?_)
    · rintro declaration injectable ⟨earlier, member, records⟩
      exact ⟨earlier, List.mem_append_left _ member, records⟩
    · intro declaration injectable records
      exact ⟨turn, by simp, records⟩

namespace Course

variable {settings : Settings} {start index : Index} {turns : List Turn} {generation : Generation}

/-- Rounds keep the injectables apart, by induction on the rounds. -/
theorem kept (course : Course settings start turns index generation) : Kept turns generation := by
  induction course with
  | start => exact ⟨.refl [], .nil⟩
  | turn _ follows _ ih => exact ih.next follows

/-- Rounds account for the declarations of the start, by induction on the rounds. -/
theorem accounted (course : Course settings start turns index generation)
    (distinct : (start.marked.map Marked.key).Nodup)
    : Accounted start.marked turns generation := by
  induction course with
  | start => exact ⟨[], by simp [Generation.unsettled], .nil⟩
  | turn before follows _ ih =>
      obtain ⟨more, marked, objected⟩ := before.grown.marked
      exact ih.next follows marked objected distinct

/-- Whatever keys declarations have, each of the start has been recorded or is still looked at, by
induction on the rounds.
-/
theorem recorded_or_unsettled (course : Course settings start turns index generation)
    {marked : Marked} (present : marked ∈ start.marked)
    : (∃ turn ∈ turns, ∃ injectable, turn.Records marked injectable)
      ∨ marked ∈ generation.unsettled start.marked := by
  induction course with
  | start => exact .inr (by simpa [Generation.unsettled] using present)
  | @turn turns generation turn before follows _ ih =>
      obtain ⟨more, grown, objected⟩ := before.grown.marked
      rcases ih with ⟨earlier, member, records⟩ | unsettled
      · exact .inl ⟨earlier, List.mem_append_left _ member, records⟩
      · rcases follows.records_or_defers grown objected unsettled with records | deferred
        · exact .inl ⟨turn, by simp, records⟩
        · refine .inr ((Turn.mem_unsettled_next grown).mpr ⟨present, ?_⟩)
          exact List.mem_map_of_mem deferred

end Course

namespace Completes

variable {settings : Settings} {start : Index} {turns : List Turn} {generation : Generation}

/-- A complete generation accounts for its turns, since each turn does for its own. -/
theorem kept (completes : Completes settings start turns generation) : Kept turns generation := by
  obtain ⟨course, follows, _⟩ := completes
  exact course.kept.next follows

/-- What a round has recorded is kept. -/
theorem mem_injectables (completes : Completes settings start turns generation) {turn : Turn}
    (member : turn ∈ turns) {marked : Marked} {injectable : Injectable}
    (records : turn.Records marked injectable)
    : injectable ∈ generation.injectables :=
  completes.kept.injectables.mem_iff.mpr
    (List.mem_flatMap.mpr ⟨turn, member, records.accepted⟩)

/-- Each declaration of the start has been recorded in some round. -/
theorem exists_records (completes : Completes settings start turns generation) {marked : Marked}
    (present : marked ∈ start.marked)
    : ∃ turn ∈ turns, ∃ injectable, turn.Records marked injectable := by
  obtain @⟨turns, last, before, course, follows, settled⟩ := completes
  obtain ⟨more, grown, objected⟩ := course.grown.marked
  rcases course.recorded_or_unsettled present with ⟨turn, member, records⟩ | unsettled
  · exact ⟨turn, List.mem_append_left _ member, records⟩
  · rcases follows.records_or_defers grown objected unsettled with records | deferred
    · exact ⟨last, by simp, records⟩
    · simp [settled] at deferred

/-- What has been accepted was recorded in some round for a declaration of the start. -/
theorem exists_declaration (completes : Completes settings start turns generation)
    {injectable : Injectable} (kept : injectable ∈ generation.injectables)
    : ∃ marked ∈ start.marked, ∃ turn ∈ turns, turn.Records marked injectable := by
  obtain ⟨turn, member, accepted⟩ :=
    List.mem_flatMap.mp (completes.kept.injectables.mem_iff.mp kept)
  obtain ⟨_, _, _, course, follows⟩ := completes.of_mem member
  obtain ⟨_, grown, objected⟩ := course.grown.marked
  obtain ⟨marked, unsettled, records⟩ := follows.exists_records grown objected accepted
  exact ⟨marked, (Generation.mem_unsettled.mp unsettled).1, turn, member, records⟩

/-- A factory that a round has made is that of an injectable. -/
theorem exists_injectable (completes : Completes settings start turns generation)
    {factory : Artifact} (member : factory ∈ turns.flatMap Turn.factories)
    : ∃ injectable ∈ generation.injectables, Emission.factory? injectable = some factory := by
  obtain ⟨injectable, accepted, made⟩ := exists_of_forall₂ completes.made.flip member
  exact ⟨injectable, completes.kept.injectables.mem_iff.mpr accepted, made⟩

/-- Injectables of one target are one. -/
theorem eq_of_target_eq (completes : Completes settings start turns generation)
    {injectable other : Injectable} (kept : injectable ∈ generation.injectables)
    (keptOther : other ∈ generation.injectables) (same : injectable.target = other.target)
    : injectable = other :=
  List.inj_on_of_nodup_map completes.kept.distinct kept keptOther same

/-- In the end no declaration is open, so all of them have been recorded. -/
theorem recorded (completes : Completes settings start turns generation)
    (distinct : (start.marked.map Marked.key).Nodup)
    : ∃ recorded,
        List.Forall₂ (fun marked injectable => ∃ turn ∈ turns, turn.Records marked injectable)
          start.marked recorded
        ∧ recorded.Perm generation.injectables := by
  have kept := completes.kept
  obtain ⟨course, follows, settled⟩ := completes
  obtain ⟨more, marked, objected⟩ := course.grown.marked
  have accounted := (course.accounted distinct).next follows marked objected distinct
  obtain ⟨order, shared, pairs⟩ := accounted
  rw [follows.unsettled_next marked objected distinct, settled, List.append_nil] at shared
  obtain ⟨recorded, pairs, reordered⟩ := List.perm_comp_forall₂ shared.symm pairs
  exact ⟨recorded, pairs, reordered.trans kept.injectables.symm⟩

end Completes

-----------------------------------------------------------------------------------------
-- A whole run
-----------------------------------------------------------------------------------------

/-- A store in memory refuses nothing. -/
theorem MemoryStore.not_refuses {failure : Failure} : ¬ Refuses MemoryStore.write failure := by
  rintro ⟨_, _, refused⟩
  contradiction

/-- Writing to memory inserts one artifact after the other. -/
theorem MemoryStore.eq_of_written {store after : MemoryStore} {artifacts : List Artifact}
    (written : Written MemoryStore.write store artifacts after)
    : after = artifacts.foldl MemoryStore.insert store := by
  induction written with
  | none => rfl
  | first _ _ ih => exact ih

/-- It counts every artifact, by induction on them. -/
theorem MemoryStore.writes_foldl_insert (artifacts : List Artifact) (store : MemoryStore)
    : (artifacts.foldl MemoryStore.insert store).writes = store.writes + artifacts.length := by
  induction artifacts generalizing store with
  | nil => rfl
  | cons artifact rest ih =>
      have inserted : (store.insert artifact).writes = store.writes + 1 := rfl
      rw [List.foldl_cons, ih, inserted, List.length_cons]
      omega

namespace Workplace

/-- A run that succeeds accounts for every marked declaration of the index it began with: each stands
beside one injectable that some round recorded for it, and these are all injectables. The store has
been given one factory for each of them, and then the component. Each round settles the open
declarations that it records, and at the end none is open.
-/
theorem run_accounts {settings : Settings} {index : Index} {store : MemoryStore}
    {summary : Summary} (distinct : (index.marked.map Marked.key).Nodup)
    (done : (run MemoryStore.write ⟨{ settings }, index, store⟩).result = .ok summary)
    : ∃ turns generation,
        Completes settings index turns generation
        ∧ (run MemoryStore.write ⟨{ settings }, index, store⟩).state.generation = generation
        ∧ (∃ recorded,
            List.Forall₂ (fun marked injectable => ∃ turn ∈ turns, turn.Records marked injectable)
              index.marked recorded
            ∧ recorded.Perm generation.injectables)
        ∧ (generation.injectables.map Injectable.target).Nodup
        ∧ summary.rounds = turns.length
        ∧ summary.injectables = index.marked.length
        ∧ ∃ order factories component,
            order.Perm generation.injectables
            ∧ List.Forall₂ (fun injectable factory => Emission.factory? injectable = some factory)
                order factories
            ∧ Emission.component settings generation.injectables = .ok component
            ∧ (run MemoryStore.write ⟨{ settings }, index, store⟩).state.store
              = (factories ++ [component]).foldl MemoryStore.insert store
            ∧ (run MemoryStore.write ⟨{ settings }, index, store⟩).state.store.writes
              = store.writes + index.marked.length + 1 := by
  obtain ⟨turns, generation, component, completes, state, made, written, rfl⟩ := run_eq_ok done
  have kept := completes.kept
  obtain ⟨same, rounds⟩ := completes.counted
  obtain ⟨recorded, pairs, reordered⟩ := completes.recorded distinct
  have number : generation.injectables.length = index.marked.length :=
    reordered.length_eq.symm.trans pairs.length_eq.symm
  have factories : (turns.flatMap Turn.factories).length = index.marked.length := by
    rw [← completes.made.length_eq, ← kept.injectables.length_eq, number]
  have stored := MemoryStore.eq_of_written written
  refine ⟨turns, generation, completes, state, ⟨recorded, pairs, reordered⟩, kept.distinct, rounds,
    number, turns.flatMap (·.intake.accepted), turns.flatMap Turn.factories, component,
    kept.injectables.symm, completes.made, same ▸ made, stored, ?_⟩
  rw [stored, MemoryStore.writes_foldl_insert, List.length_append, factories]
  rfl

/-- A constructor `new` of a type of the module `crate::m`, in the line of the given number. -/
def constructorOf (owner : String) (parameters : List Parameter) (line : Nat) : Marked := {
  location := ⟨⟨"src/m.rs"⟩, line⟩
  home := "crate::m"
  scope := 0
  owner := some (.single owner)
  ownerIsGeneric := false
  name := "new"
  objection := none
  parameters
}

/-- A client that is made of a socket, and the socket. -/
def clientAndSocket : Index := {
  marker := "inject"
  scopes := [⟨"crate::m", []⟩]
  declared := ["crate::m::Client", "crate::m::Socket"]
  modules := ["crate::m", "crate"]
  marked := [
    constructorOf "Client" [⟨"socket", .shared (.single "Socket")⟩] 3,
    constructorOf "Socket" [] 6
  ]
  files := [⟨"src/m.rs"⟩]
}

/-- What the generation of a client and a socket has recorded after its one round. -/
def clientAndSocketRecorded : Generation := {
  settings := {}
  injectables := [
    ⟨⟨"crate::m", "Client"⟩, "new", [⟨"crate::m", "Socket"⟩], ⟨⟨"src/m.rs"⟩, 3⟩⟩,
    ⟨⟨"crate::m", "Socket"⟩, "new", [], ⟨⟨"src/m.rs"⟩, 6⟩⟩
  ]
  processed := ["src/m.rs:3#Client::new", "src/m.rs:6#Socket::new"]
  rounds := 1
}

/-- With the default settings the first round records the generation and defers nothing, and the rows of
the component can be written.
-/
def SettlesAtOnce (index : Index) (generation : Generation) : Prop :=
  (Workplace.round MemoryStore.write ⟨{ settings := {} }, index, {}⟩).result.toOption.map
      Round.deferred
    = some []
  ∧ (Workplace.round MemoryStore.write ⟨{ settings := {} }, index, {}⟩).state.generation = generation
  ∧ (generation.settings = {} ∧ generation.deferred = [])
  ∧ (generation.injectables.Pairwise fun left right => left.target < right.target)
  ∧ (Emission.rows? ":: tinydi" "TinyDiComponentDispatch" generation.injectables).isSome = true

instance {index : Index} {generation : Generation} : Decidable (SettlesAtOnce index generation) :=
  inferInstanceAs (Decidable (_ ∧ _ ∧ _ ∧ _ ∧ _))

/-- A run that settles everything in its first round goes on to its component, and succeeds. -/
theorem SettlesAtOnce.run_eq_ok {index : Index} {generation : Generation}
    (settles : SettlesAtOnce index generation)
    : ∃ summary,
        (run MemoryStore.write ⟨{ settings := {} }, index, {}⟩).result = .ok summary
        ∧ (run MemoryStore.write ⟨{ settings := {} }, index, {}⟩).state.generation = generation := by
  obtain ⟨settled, state, plain, ascending, rows⟩ := settles
  have path := Settings.readPath?_default
  have name := Settings.readIdentifier?_default
  have dispatch : Emission.bareName "TinyDiComponent" ++ "Dispatch" = "TinyDiComponentDispatch" := by
    decide +kernel
  obtain ⟨found, rows⟩ := Option.isSome_iff_exists.mp rows
  obtain ⟨component, made⟩ : ∃ component,
      Emission.component generation.settings generation.injectables = .ok component := by
    rw [plain.1]
    exact ⟨_, Emission.component_of_ascending ascending path name (dispatch ▸ rows)⟩
  have free : generation.obstacle? = none := by
    simp [Generation.obstacle?, plain.1, plain.2]
  obtain ⟨result, same, _⟩ := run_eq_ok_of_settled settled state free made rfl
  exact ⟨_, result, same⟩

/-- The client and the socket settle at once. -/
theorem run_clientAndSocket
    : ∃ summary,
        (run MemoryStore.write ⟨{ settings := {} }, clientAndSocket, {}⟩).result = .ok summary
        ∧ (run MemoryStore.write ⟨{ settings := {} }, clientAndSocket, {}⟩).state.generation
          = clientAndSocketRecorded :=
  SettlesAtOnce.run_eq_ok (by decide +kernel)

/-- Witness: two descriptors, and three artifacts with the component. -/
theorem run_accounts_clientAndSocket
    : ∃ summary turns generation,
        (clientAndSocket.marked.map Marked.key).Nodup
        ∧ (run MemoryStore.write ⟨{ settings := {} }, clientAndSocket, {}⟩).result = .ok summary
        ∧ Completes {} clientAndSocket turns generation
        ∧ summary.injectables = 2
        ∧ (run MemoryStore.write ⟨{ settings := {} }, clientAndSocket, {}⟩).state.store.writes
          = 3 := by
  have distinct : (clientAndSocket.marked.map Marked.key).Nodup := by decide +kernel
  obtain ⟨summary, ran, _⟩ := run_clientAndSocket
  obtain ⟨turns, generation, completes, _, _, _, _, number, _, _, _, _, _, _, _, writes⟩ :=
    run_accounts distinct ran
  exact ⟨summary, turns, generation, distinct, ran, completes, number, writes⟩

end Workplace

end Wiring
