import Wiring.Build
import Wiring.Proofs.Emission.Agreement
import Wiring.Proofs.Generation.Accounting
import Wiring.Proofs.Index.NamedPaths
import Wiring.Proofs.Store.Writing

/-! Runs over text that is no identifier. Where the modules of all source files are proper names, every
type that a run accepts is spelled in identifiers, and so is its factory. All that is left to fail is the
component, over the function that constructs a type with a raw name.
-/

namespace Wiring

open Source Segments

/-- Whether the names of an injectable consist of identifiers. -/
structure Injectable.Named (injectable : Injectable) : Prop where
  target : injectable.target.Named
  constructor : Identifier.isToken injectable.constructor = true
  parameters : ∀ type ∈ injectable.parameters, type.Named

/-- What consists of identifiers is spelled in them. -/
theorem Injectable.Named.allSpelled {injectable : Injectable} (named : injectable.Named)
    : Emission.AllSpelled injectable where
  target := named.target.isSpelled
  named := named.constructor
  parameters type member := (named.parameters type member).isSpelled

-----------------------------------------------------------------------------------------
-- Surveys
-----------------------------------------------------------------------------------------

namespace Index.Named

variable {index : Index}

/-- Adding sources keeps to identifiers, however far it comes, by induction on them. -/
theorem takeEach (named : index.Named) {sources : List SourceFile}
    (paths : ∀ source ∈ sources, IsPath source.home)
    : (index.takeEach sources).state.Named := by
  induction sources generalizing index with
  | nil => exact named
  | cons source rest ih =>
      obtain ⟨path, paths⟩ := List.forall_mem_cons.mp paths
      exact Reply.state_andThen (named.take path) fun _ => ih (named.take path) paths

/-- Files in modules of proper names leave an index of identifiers, by induction on them. -/
theorem readEach (named : index.Named) (tree : FileTree) (root : FilePath) {paths : List FilePath}
    (modules : ∀ path ∈ paths, IsPath (root.moduleBelow path))
    : (index.readEach tree root paths).state.Named := by
  induction paths generalizing index with
  | nil => exact named
  | cons path rest ih =>
      obtain ⟨proper, modules⟩ := List.forall_mem_cons.mp modules
      unfold Index.readEach
      split
      · exact named
      · rename_i source read
        have home : source.home = root.moduleBelow path := by
          unfold SourceFile.read at read
          split at read
          · obtain rfl := Except.ok.inj read
            rfl
          · contradiction
        have taken : (index.take source).state.Named := named.take (home ▸ proper)
        exact Reply.state_andThen taken fun _ => ih taken modules

end Index.Named

/-- The index of a survey of files in modules of proper names. -/
theorem Build.named_of_survey {settings : Settings} {root : FilePath} {tree : FileTree}
    {index : Index}
    (modules : ∀ path ∈ (tree.sources? root).getD [], IsPath (root.moduleBelow path))
    (surveyed : (survey settings root tree).result = .ok index)
    : index.Named := by
  unfold survey at surveyed
  split at surveyed
  · rename_i found events files taken
    obtain rfl := Except.ok.inj surveyed
    have state : (Index.takeBelow tree root { marker := settings.marker }).state = found := by
      rw [taken]
    rw [← state]
    unfold Index.takeBelow
    split
    · exact .empty settings.marker
    · rename_i paths listed
      rw [listed] at modules
      exact (Index.Named.empty settings.marker).readEach tree root modules
  · contradiction

-----------------------------------------------------------------------------------------
-- Rounds
-----------------------------------------------------------------------------------------

/-- What a round takes in consists of identifiers, like the index that it looks at. -/
theorem Index.Named.accepted {index : Index} (named : index.Named) {generation : Generation}
    {intake : Intake}
    (ruled
      : Intake.ofRulings
          (Intake.rulings generation.processed generation.injectables index.candidates)
        = .ok intake)
    : ∀ injectable ∈ intake.accepted, injectable.Named := by
  intro injectable accepted
  rw [(Intake.takes_of_ofRulings ruled).accepted] at accepted
  obtain ⟨candidate, open_, resolved⟩ := List.mem_filterMap.mp accepted
  obtain ⟨marked, present, rfl⟩ := List.mem_map.mp (List.mem_of_mem_filter open_)
  obtain ⟨owner, parameters, constructor, _⟩ := Candidate.injectable?_eq_some resolved
  have proper := named.marked marked present
  exact {
    target := named.ownerType? proper owner
    constructor := constructor ▸ proper.name
    parameters := named.parameterTypes? proper parameters
  }

namespace Course

variable {settings : Settings} {start index : Index} {turns : List Turn} {generation : Generation}

/-- All rounds keep to identifiers, by induction on them: factories stand in modules of types that have
been accepted.
-/
theorem named (course : Course settings start turns index generation) (proper : start.Named)
    : index.Named ∧ ∀ injectable ∈ generation.injectables, injectable.Named := by
  induction course with
  | start => exact ⟨proper, by simp⟩
  | @turn turns generation turn before follows taken ih =>
      obtain ⟨named, earlier⟩ := ih
      have accepted := named.accepted follows.ruled
      refine ⟨named.takeEach fun source member => ?_, fun injectable member => ?_⟩
      · obtain ⟨factory, among, rfl⟩ := List.mem_map.mp member
        obtain ⟨injectable, present, made⟩ := exists_of_forall₂ follows.made.flip among
        have home : factory.source.home = injectable.target.home := Index.home_of_factory? made
        exact home ▸ (accepted injectable present).target.home
      · rcases List.mem_append.mp (follows.injectables_perm.mem_iff.mp member) with old | new
        · exact earlier injectable old
        · exact accepted injectable new

end Course

-----------------------------------------------------------------------------------------
-- The component
-----------------------------------------------------------------------------------------

/-- Valid settings name the path of the library and the component. -/
theorem Settings.names_of_validate {settings : Settings}
    (valid : settings.validate = .ok settings)
    : (∃ runtime, readPath? settings.runtimePath = some runtime)
      ∧ ∃ component, readIdentifier? settings.componentName = some component := by
  have flawless : settings.fault? = none := by
    unfold validate at valid
    split at valid
    · contradiction
    · assumption
  simp only [fault?, Option.isNone_iff_eq_none] at flawless
  rw [← Option.ne_none_iff_exists', ← Option.ne_none_iff_exists']
  grind

namespace Emission

/-- The function that constructs a type with a raw name has no name of its own. -/
theorem isBare_of_isToken_constructorName {index : Nat} {injectable : Injectable}
    (token : Identifier.isToken (constructorName index injectable) = true)
    : IsBare injectable.target.name := by
  unfold IsBare bareName
  split
  · rename_i rest raw
    have mark : '#' ∈ (constructorName index injectable).toList := by
      have kept : '#' ∈ (SnakeCase.ofName injectable.target.name).toList :=
        SnakeCase.mem_ofName_of_mem (by decide) (by simp [raw])
      rw [constructorName_toList]
      simp [kept]
    have named : Identifier.isName (constructorName index injectable).toList = true := by
      unfold Identifier.isToken at token
      split at token
      · rename_i rest same
        rw [constructorName_toList] at same
        simp at same
      · exact token
    exact absurd (Identifier.isContinue_of_mem named mark) (by decide)
  · rfl

/-- A row is only made where the name of its function is an identifier. -/
theorem word?_isSome_of_row? {runtime dispatch : String} {index : Nat} {injectable : Injectable}
    {row : ComponentRow} (made : row? runtime dispatch index injectable = some row)
    : Identifier.isToken (constructorName index injectable) = true := by
  simp only [row?, Option.bind_eq_bind, Option.bind_eq_some_iff] at made
  obtain ⟨_, word, _⟩ := made
  exact (word?_eq_some word).2

/-- With valid settings, the component of spelled injectables fails over a raw name and nothing else. -/
theorem component_eq_notAnIdentifier_iff {settings : Settings} {injectables : List Injectable}
    (valid : settings.validate = .ok settings)
    (spelled : ∀ injectable ∈ injectables, AllSpelled injectable)
    : component settings injectables = .error .notAnIdentifier
      ↔ ∃ injectable ∈ injectables, ¬ IsBare injectable.target.name := by
  obtain ⟨⟨runtime, path⟩, ⟨name, named⟩⟩ := Settings.names_of_validate valid
  constructor
  · intro failed
    by_contra bare
    push Not at bare
    obtain ⟨artifact, made, _⟩ := exists_component_spells spelled bare path named
    rw [failed] at made
    contradiction
  · rintro ⟨injectable, member, raw⟩
    have unmade : rows? runtime (bareName name ++ "Dispatch") (inRowOrder injectables) = none := by
      by_contra made
      obtain ⟨rows, made⟩ := Option.ne_none_iff_exists'.mp made
      have ordered := (inRowOrder_perm injectables).mem_iff.mpr member
      rw [← List.zipIdx_map_fst 0 (inRowOrder injectables)] at ordered
      obtain ⟨⟨_, index⟩, numbered, rfl⟩ := List.mem_map.mp ordered
      obtain ⟨row, _, here⟩ := exists_of_forall₂ (forall₂_of_mapM_eq_some made) numbered
      exact raw (isBare_of_isToken_constructorName (word?_isSome_of_row? here))
    simp only [component, path, named, unmade]

end Emission

/-- The end of a generation stops at a raw name, unless something else keeps it from the component. -/
theorem Generation.finish_eq_notAnIdentifier_iff {σ : Type} {write : Writer σ}
    {generation : Generation} {store : σ}
    (valid : generation.settings.validate = .ok generation.settings)
    (spelled : ∀ injectable ∈ generation.injectables, Emission.AllSpelled injectable)
    (accepts : ¬ Refuses write .notAnIdentifier)
    : (generation.finish write store).result = .error .notAnIdentifier
      ↔ generation.obstacle? = none
        ∧ ∃ injectable ∈ generation.injectables, ¬ Emission.IsBare injectable.target.name := by
  rw [← Emission.component_eq_notAnIdentifier_iff valid spelled]
  constructor
  · intro failed
    rcases finish_eq_error failed with obstacle | ⟨free, component | refused⟩
    · rcases obstacle?_eq_some obstacle with ⟨_, same⟩ | ⟨_, same⟩ <;> contradiction
    · exact ⟨free, component⟩
    · exact absurd refused accepts
  · rintro ⟨free, component⟩
    simp only [finish, free, complete, component, Reply.telling, Reply.failed]

-----------------------------------------------------------------------------------------
-- Whole runs
-----------------------------------------------------------------------------------------

namespace Workplace

variable {σ : Type} {write : Writer σ} {settings : Settings} {index : Index} {store : σ}

/-- Rounds over an index of identifiers fail over no name. -/
theorem rounds_ne_notAnIdentifier (named : index.Named)
    (accepts : ¬ Refuses write .notAnIdentifier) (more : Nat)
    : (rounds write more ⟨{ settings }, index, store⟩).result ≠ .error .notAnIdentifier := by
  intro failed
  obtain ⟨_, index, generation, course, fails⟩ := rounds_eq_error accepts (by simp) .start failed
  cases fails with
  | name ruled accepted unmade =>
      have spelled := ((course.named named).1.accepted ruled _ accepted).allSpelled
      obtain ⟨factory, made⟩ := spelled.exists_factory?
      rw [unmade] at made
      contradiction

/-- Rounds over an index of identifiers keep the settings and accept what consists of identifiers. -/
theorem named_of_rounds (named : index.Named) {more : Nat} {workplace : Workplace σ}
    {events : List Event}
    (rounded : rounds write more ⟨{ settings }, index, store⟩ = ⟨workplace, events, .ok ()⟩)
    : workplace.generation.settings = settings
      ∧ ∀ injectable ∈ workplace.generation.injectables, injectable.Named := by
  obtain ⟨_, last, before, course, follows, next, _⟩ :=
    rounds_eq_ok .start (congrArg Reply.result rounded)
  rw [rounded] at next
  obtain ⟨inIndex, earlier⟩ := course.named named
  rw [next, (last.next_counted before).1]
  refine ⟨course.counted.1, fun injectable member => ?_⟩
  rcases List.mem_append.mp (follows.injectables_perm.mem_iff.mp member) with old | new
  · exact earlier injectable old
  · exact inIndex.accepted follows.ruled injectable new

/-- When a run over the source files of a directory stops at a text that is no identifier. All modules
of the files being proper names and the settings valid, it does so only at the very end: when all
rounds have succeeded, nothing keeps the component from being made, and some accepted type has a raw
name. Otherwise it succeeds, or reports another failure. The index of the files is named, and rounds
keep it so; names that are no identifiers are then left to the component alone.
-/
theorem run_eq_notAnIdentifier_iff {root : FilePath} {tree : FileTree}
    (valid : settings.validate = .ok settings)
    (modules : ∀ path ∈ (tree.sources? root).getD [], IsPath (root.moduleBelow path))
    (surveyed : (Build.survey settings root tree).result = .ok index)
    (accepts : ¬ Refuses write .notAnIdentifier)
    : (run write ⟨{ settings }, index, store⟩).result = .error .notAnIdentifier
      ↔ ∃ workplace events,
          rounds write (settings.maxRounds - 1) ⟨{ settings }, index, store⟩
            = ⟨workplace, events, .ok ()⟩
          ∧ workplace.generation.obstacle? = none
          ∧ ∃ injectable ∈ workplace.generation.injectables,
              ¬ Emission.IsBare injectable.target.name := by
  have named := Build.named_of_survey modules surveyed
  have ends {workplace : Workplace σ} {events : List Event}
      (rounded
        : rounds write (settings.maxRounds - 1) ⟨{ settings }, index, store⟩
          = ⟨workplace, events, .ok ()⟩)
      : (run write ⟨{ settings }, index, store⟩).result = .error .notAnIdentifier
        ↔ workplace.generation.obstacle? = none
          ∧ ∃ injectable ∈ workplace.generation.injectables,
              ¬ Emission.IsBare injectable.target.name := by
    obtain ⟨same, proper⟩ := named_of_rounds named rounded
    rw [run, rounded]
    exact Generation.finish_eq_notAnIdentifier_iff (same ▸ valid)
      (fun injectable member => (proper injectable member).allSpelled) accepts
  constructor
  · intro failed
    rcases rounded : rounds write (settings.maxRounds - 1) ⟨{ settings }, index, store⟩ with
      ⟨workplace, events, answer⟩
    cases answer with
    | ok _ => exact ⟨workplace, events, rfl, (ends rounded).mp failed⟩
    | error failure =>
        have rounding := congrArg Reply.result rounded
        have same : (run write ⟨{ settings }, index, store⟩).result = .error failure :=
          (Reply.andThen_of_error rounding).trans rfl
        obtain rfl := Except.error.inj (same.symm.trans failed)
        exact absurd rounding (rounds_ne_notAnIdentifier named accepts _)
  · rintro ⟨workplace, events, rounded, atEnd⟩
    exact (ends rounded).mpr atEnd

/-- A crate with one file, which declares a type and its constructor. -/
private def crateOf (file type : String) : FileTree :=
  ⟨[(["src"], .directory),
    (["src", file],
      .file (.text ("struct " ++ type ++ ";impl " ++ type ++ "{#[inject]fn new()->Self{loop{}}}")))]⟩

/-- What stands in the file of a module. -/
private def indexOf (file home type : String) : Index := {
  marker := "inject"
  scopes := [⟨home, []⟩]
  declared := [Segments.within home type]
  modules := [home, "crate"].dedup
  marked := [{ constructorOf type [] 1 with location := ⟨⟨"src/" ++ file⟩, 1⟩, home }]
  files := [⟨"src/" ++ file⟩]
}

/-- The survey of either crate finds the index. -/
private theorem survey_crateOf
    : ∀ type ∈ ["S", "r#S"],
        (∀ path ∈ ((crateOf "lib.rs" type).sources? ⟨"src"⟩).getD [],
          IsPath (FilePath.moduleBelow ⟨"src"⟩ path))
        ∧ (Build.survey {} ⟨"src"⟩ (crateOf "lib.rs" type)).result
          = .ok (indexOf "lib.rs" "crate" type) := by
  decide +kernel

/-- Its rounds succeed and record the constructor, whether or not the name is raw. -/
private theorem rounds_indexOf
    : ∀ type ∈ ["S", "r#S"],
        (rounds MemoryStore.write 7 ⟨{ settings := {} }, indexOf "lib.rs" "crate" type, {}⟩).result
          = .ok ()
        ∧ (rounds MemoryStore.write 7
            ⟨{ settings := {} }, indexOf "lib.rs" "crate" type, {}⟩).state.generation
          = {
            settings := {}
            injectables := [⟨⟨"crate", type⟩, "new", [], ⟨⟨"src/lib.rs"⟩, 1⟩⟩]
            processed := ["src/lib.rs:1#" ++ type ++ "::new"]
            rounds := 1
          } := by
  decide +kernel

/-- A run stops at the type `r#S`, and does not at the type `S`. Both runs come to their end with one
type accepted, which is raw in one of them.
-/
theorem run_eq_notAnIdentifier_rawName
    : (run MemoryStore.write ⟨{ settings := {} }, indexOf "lib.rs" "crate" "S", {}⟩).result
        ≠ .error .notAnIdentifier
      ∧ (run MemoryStore.write ⟨{ settings := {} }, indexOf "lib.rs" "crate" "r#S", {}⟩).result
        = .error .notAnIdentifier := by
  have valid : Settings.validate {} = .ok {} := by decide +kernel
  have stops (type : String) (among : type ∈ ["S", "r#S"])
      : (run MemoryStore.write ⟨{ settings := {} }, indexOf "lib.rs" "crate" type, {}⟩).result
          = .error .notAnIdentifier
        ↔ type = "r#S" := by
    obtain ⟨modules, surveyed⟩ := survey_crateOf type among
    obtain ⟨rounded, state⟩ := rounds_indexOf type among
    have decided
        : (run MemoryStore.write ⟨{ settings := {} }, indexOf "lib.rs" "crate" type, {}⟩).result
            = .error .notAnIdentifier
          ↔ _ :=
      run_eq_notAnIdentifier_iff valid modules surveyed MemoryStore.not_refuses
    have seven : ({} : Settings).maxRounds - 1 = 7 := rfl
    rw [seven] at decided
    refine decided.trans ?_
    clear decided
    -- From here on only what the rounds come to counts, not how they get there.
    generalize rounds MemoryStore.write 7 _ = reply at *
    constructor
    · rintro ⟨workplace, events, rfl, _, injectable, member, raw⟩
      rw [state] at member
      obtain rfl := List.mem_singleton.mp member
      rcases List.mem_pair.mp among with rfl | rfl
      · exact absurd (by decide : Emission.IsBare "S") raw
      · rfl
    · rintro rfl
      obtain ⟨workplace, events, answer⟩ := reply
      obtain rfl : answer = .ok () := rounded
      refine ⟨workplace, events, rfl, ?_⟩
      rw [state]
      exact ⟨by decide, _, List.mem_singleton.mpr rfl, by decide⟩
  refine ⟨fun raw => ?_, (stops "r#S" (by simp)).mpr rfl⟩
  exact absurd ((stops "S" (by simp)).mp raw) (by decide)

/-- A run over a file whose name is no identifier stops in its first round, though the file can be read
and the settings are valid.
-/
theorem run_eq_notAnIdentifier_fileName
    : Settings.validate {} = .ok {}
      ∧ (Build.survey {} ⟨"src"⟩ (crateOf "my-tool.rs" "S")).result
        = .ok (indexOf "my-tool.rs" "crate::my-tool" "S")
      ∧ (run MemoryStore.write
          ⟨{ settings := {} }, indexOf "my-tool.rs" "crate::my-tool" "S", {}⟩).result
        = .error .notAnIdentifier := by
  refine ⟨by decide +kernel, by decide +kernel, Reply.andThen_of_error ?_⟩
  exact Reply.andThen_of_error (show (Workplace.round _ _).result = _ by decide +kernel)

end Workplace

end Wiring
