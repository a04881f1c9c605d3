import Wiring.Proofs.Generation.Atomicity
import Wiring.Proofs.Generation.Identifiers
import Wiring.Proofs.Generation.Mishaps
import Wiring.Proofs.Settings.Variables
import Wiring.Proofs.Store.Confinement
import Wiring.Proofs.Store.SparedManifests

/-! Generations that fail. Whatever one fails over, and however far it has come, the manifest of its
directory is as it was. Where it fails over its settings or its sources nothing has changed at all, and
where the first round has found invalid declarations there may be new directories, but all files are as
they were.
-/

namespace Wiring

-----------------------------------------------------------------------------------------
-- Runs
-----------------------------------------------------------------------------------------

/-- Valid settings are not at fault when a component fails. -/
theorem Emission.component_ne_settings {settings : Settings}
    (valid : settings.validate = .ok settings) (injectables : List Injectable)
    (fault : SettingsFault)
    : component settings injectables ≠ .error (.settings fault) := by
  obtain ⟨⟨runtime, path⟩, ⟨name, named⟩⟩ := Settings.names_of_validate valid
  unfold component
  rw [path, named]
  dsimp only
  split <;> simp

namespace Workplace

variable {σ : Type} {write : Writer σ} {settings : Settings} {index : Index} {store : σ}

/-- No run with valid settings fails over them. -/
theorem run_ne_settings (valid : settings.validate = .ok settings) {fault : SettingsFault}
    (accepts : ¬ Refuses write (.settings fault))
    : (run write ⟨{ settings }, index, store⟩).result ≠ .error (.settings fault) := by
  intro failed
  rw [run] at failed
  rcases Reply.andThen_eq_error failed with rounded | ⟨_, rounded, finished⟩
  · obtain ⟨_, _, _, _, fails⟩ := rounds_eq_error accepts (by simp) .start rounded
    cases fails
  · obtain ⟨further, last, before, course, _, next, _⟩ := rounds_eq_ok .start rounded
    rw [Reply.result_lift] at finished
    rcases Generation.finish_eq_error finished with obstacle | ⟨_, component | refused⟩
    · rcases Generation.obstacle?_eq_some obstacle with ⟨_, same⟩ | ⟨_, same⟩ <;> contradiction
    · rw [next, (last.next_counted before).1, course.counted.1] at component
      exact Emission.component_ne_settings valid _ fault component
    · exact accepts refused

/-- A run whose first round finds invalid declarations leaves its store as it was. The first round
fails before anything is written, and no other one follows.
-/
theorem run_of_invalid {diagnostics : List Diagnostic}
    (invalid : Intake.ofRulings (Intake.rulings [] [] index.candidates) = .error diagnostics)
    (write : Writer σ) (store : σ)
    : (run write ⟨{ settings }, index, store⟩).result = .error (.invalid diagnostics)
      ∧ (run write ⟨{ settings }, index, store⟩).state.store = store := by
  have first
      : (round write ⟨{ settings }, index, store⟩).result = .error (.invalid diagnostics)
        ∧ (round write ⟨{ settings }, index, store⟩).state.store = store := by
    unfold round
    rw [Generation.round_of_invalid invalid]
    exact ⟨rfl, rfl⟩
  have rounds (more : Nat)
      : (rounds write more ⟨{ settings }, index, store⟩).result = .error (.invalid diagnostics)
        ∧ (rounds write more ⟨{ settings }, index, store⟩).state.store = store := by
    cases more with
    | zero =>
        refine ⟨?_, first.2⟩
        rw [Workplace.rounds, Reply.map, first.1]
        rfl
    | succ more =>
        rw [Workplace.rounds, Reply.andThen_of_error first.1, Reply.state_andThen_of_error first.1]
        exact ⟨rfl, first.2⟩
  unfold run
  obtain ⟨result, state⟩ := rounds (settings.maxRounds - 1)
  rw [Reply.andThen_of_error result, Reply.state_andThen_of_error result]
  exact ⟨rfl, state⟩

end Workplace

namespace Build

open DirectoryStore FileTree

-----------------------------------------------------------------------------------------
-- Operations that may fail
-----------------------------------------------------------------------------------------

namespace Disk.MayFail

variable {disk : Disk} {settings : Settings} {root : FilePath} {tree : FileTree}
  {store : DirectoryStore} {failure : Failure}

/-- Reading sources changes nothing. -/
theorem state_survey (mayFail : disk.MayFail) (settings : Settings) (sources : FilePath)
    (tree : FileTree)
    : (disk.survey settings sources tree).state = tree := by
  rcases mayFail.survey settings sources tree with same | ⟨_, _, state⟩
  · rw [same, Build.survey]
    split <;> rfl
  · exact state

/-- A disk that opens a store opens the real one. -/
theorem openAt_of_ok (mayFail : disk.MayFail) (opened : (disk.openAt root tree).result = .ok store)
    : disk.openAt root tree = DirectoryStore.openAt root tree := by
  rcases mayFail.openAt root tree with same | ⟨_, failed, _⟩
  · exact same
  · rw [failed] at opened
    contradiction

/-- Opening adds directories alone, whether or not it fails. -/
theorem addsDirectories_openAt (mayFail : disk.MayFail) (root : FilePath) (tree : FileTree)
    : tree.AddsDirectories (disk.openAt root tree).state := by
  rcases mayFail.openAt root tree with same | ⟨_, _, more⟩
  · rw [same]
    exact DirectoryStore.addsDirectories_openAt root tree
  · exact more

/-- Opening fails over files, not over settings. -/
theorem openAt_ne_settings (mayFail : disk.MayFail) (fault : SettingsFault)
    : (disk.openAt root tree).result ≠ .error (.settings fault) := by
  rcases mayFail.openAt root tree with same | ⟨_, failed, _⟩
  · rw [same]
    intro failed
    rcases openAt_eq_error failed with broken | ⟨_, broken⟩ <;> contradiction
  · rw [failed]
    simp

/-- A disk refuses artifacts over their places and files alone, since that is all a directory does and
a failing operation names the file it failed over.
-/
theorem over_of_refuses (mayFail : disk.MayFail) (refused : Refuses disk.write failure)
    : (∃ path first second, failure = .clash path first second)
      ∨ ∃ path, failure = .inputOutput path := by
  obtain ⟨state, artifact, refused⟩ := refused
  rcases mayFail.write state artifact with same | ⟨path, failed, _⟩
  · rw [same] at refused
    refine (write_eq_error refused).imp_left ?_
    rintro ⟨name, _, _, _, _, clash⟩
    exact ⟨_, name, _, clash⟩
  · exact .inr ⟨path, Except.error.inj (refused.symm.trans failed)⟩

/-- Finishing fails over a file, with some of what is stale removed. -/
theorem finish_eq_error (mayFail : disk.MayFail)
    (failed : (disk.finish store tree).result = .error failure)
    : ∃ path removed,
        failure = .inputOutput path
        ∧ removed <+: store.stale
        ∧ (disk.finish store tree).state = (removeEach store.root tree removed).state := by
  rcases mayFail.finish store tree with same | ⟨path, removed, failedOver, early, state⟩
  · rw [same] at failed ⊢
    obtain ⟨⟨path, failedOver⟩, state⟩ := DirectoryStore.finish_eq_error failed
    exact ⟨path, store.stale, failedOver, List.prefix_rfl, state⟩
  · rw [failedOver] at failed
    exact ⟨path, removed, (Except.error.inj failed).symm, early, state⟩

end Disk.MayFail

-----------------------------------------------------------------------------------------
-- The store of a run
-----------------------------------------------------------------------------------------

/-- A store that knows of the previous run, in a tree where manifests are as they were at the start. -/
structure Spares (previous : Manifest) (start : FileTree) (state : DirectoryStore × FileTree)
    : Prop where
  previous_eq : state.1.previous = previous
  manifests : SparesManifests start state.2

/-- Each write spares the manifests and keeps the record of the run before, for a write that fails only
adds directories.
-/
theorem Disk.MayFail.keeps_spares {disk : Disk} (mayFail : disk.MayFail) (settings : Settings)
    (previous : Manifest) (start : FileTree)
    : disk.write.Keeps settings (Spares previous start) := by
  intro state artifact _ spares
  obtain ⟨sameStore, manifests⟩ :
      (disk.write state artifact).state.1.previous = state.1.previous
      ∧ SparesManifests state.2 (disk.write state artifact).state.2 := by
    rcases mayFail.write state artifact with same | ⟨_, _, store, more⟩
    · rw [same]
      refine ⟨?_, sparesManifests_write state artifact⟩
      cases result : (DirectoryStore.write state artifact).result with
      | error failure => rw [(write_of_error result).1]
      | ok =>
          obtain ⟨_, _, previous, _⟩ := files_of_write result
          exact previous
    · exact ⟨by rw [store], .of_addsDirectories more⟩
  exact ⟨sameStore.trans spares.previous_eq, spares.manifests.trans manifests⟩

-----------------------------------------------------------------------------------------
-- Generations that fail
-----------------------------------------------------------------------------------------

/-- What a generation that fails has left of the tree. Manifests are as they were, above all the one in
the directory that it generates into. If it failed over its settings, or over reading or adding its
sources, so is everything else; and if its first round found invalid declarations, so are all files.
-/
structure FailsSafely (disk : Disk) (build : Build) (environment : Environment) (tree : FileTree)
    (failure : Failure) (after : FileTree)
    : Prop where
  manifests : SparesManifests tree after
  manifest
    : ∀ directories text,
        build.directories environment = .ok directories
        → tree.readText (manifestPath directories.2) = .ok text
        → after.readText (manifestPath directories.2) = .ok text
  settings : ∀ fault, failure = .settings fault → after = tree
  sources
    : ∀ directories fault,
        build.directories environment = .ok directories
        → (disk.survey build.settings directories.1 tree).result = .error fault
        → after = tree
  firstRound
    : ∀ directories index diagnostics,
        build.directories environment = .ok directories
        → (disk.survey build.settings directories.1 tree).result = .ok index
        → Intake.ofRulings (Intake.rulings [] [] index.candidates) = .error diagnostics
        → tree.AddsDirectories after

variable {disk : Disk} {build : Build} {environment : Environment} {tree : FileTree}
  {failure : Failure}

/-- Where everything is as it was there is nothing else to see to. -/
theorem FailsSafely.refl : FailsSafely disk build environment tree failure tree where
  manifests := .refl tree
  manifest _ _ _ read := read
  settings _ _ := rfl
  sources _ _ _ _ := rfl
  firstRound _ _ _ _ _ _ := .refl tree

/-- A build that has found its directories has valid settings. -/
theorem validate_of_directories {directories : FilePath × FilePath}
    (located : build.directories environment = .ok directories)
    : build.settings.validate = .ok build.settings := by
  unfold Build.directories at located
  cases valid : build.settings.validate with
  | error fault =>
      rw [valid] at located
      contradiction
  | ok settings => exact congrArg Except.ok (Settings.validate_eq_ok_iff.mp valid).1

/-- What a failure leaves once the sources are read. It fails while the output is opened, in the run,
or at the end, and none of these touches a manifest: stale files are those of artifacts.
-/
theorem Disk.MayFail.generateInto_fails (mayFail : disk.MayFail) {settings : Settings}
    (valid : settings.validate = .ok settings) {output : FilePath} {index : Index}
    (left
      : ∀ text,
          (tree.ensureDirectory output).1.readText (manifestPath output) = .ok text
          → LeftByFinish text)
    (failed : (disk.generateInto settings output index tree).result = .error failure)
    : SparesManifests tree (disk.generateInto settings output index tree).state
      ∧ (∀ fault, failure ≠ .settings fault)
      ∧ ∀ diagnostics,
          Intake.ofRulings (Intake.rulings [] [] index.candidates) = .error diagnostics
          → tree.AddsDirectories (disk.generateInto settings output index tree).state := by
  have stage := disk.stage_generateInto settings output index tree
  generalize (disk.generateInto settings output index tree).result = result,
    (disk.generateInto settings output index tree).state = after at failed stage ⊢
  have more := mayFail.addsDirectories_openAt output tree
  cases stage with
  | opening refused =>
      obtain rfl := Except.error.inj failed
      refine ⟨.of_addsDirectories more, ?_, fun _ _ => more⟩
      rintro fault rfl
      exact mayFail.openAt_ne_settings fault refused
  | @running store failure ran opened runs refused =>
      obtain rfl := Except.error.inj failed
      have start : Spares store.previous tree (store, (disk.openAt output tree).state) :=
        ⟨rfl, .of_addsDirectories more⟩
      subst runs
      refine ⟨?_, ?_, fun diagnostics invalid => ?_⟩
      · exact (Workplace.beside_run (mayFail.keeps_spares settings _ tree) index start).store.manifests
      · rintro fault rfl
        refine Workplace.run_ne_settings valid (fun refusal => ?_) refused
        rcases mayFail.over_of_refuses refusal with ⟨_, _, _, clash⟩ | ⟨_, broken⟩ <;> contradiction
      · rw [(Workplace.run_of_invalid invalid _ _).2]
        exact more
  | @finishing store summary ran opened runs completed =>
      have start : Spares store.previous tree (store, (disk.openAt output tree).state) :=
        ⟨rfl, .of_addsDirectories more⟩
      have spares := (Workplace.beside_run (mayFail.keeps_spares settings _ tree) index start).store
      rw [runs] at spares
      obtain ⟨artifacts, known⟩ := previous_of_openAt (mayFail.openAt_of_ok opened ▸ opened) left
      obtain ⟨path, removed, rfl, early, state⟩ :=
        mayFail.finish_eq_error (Reply.map_eq_error failed)
      have files := exists_artifact_of_mem_stale (spares.previous_eq.trans known)
      refine ⟨?_, by simp, fun diagnostics invalid => ?_⟩
      · rw [state]
        exact spares.manifests.trans
          (sparesManifests_removeEach _ _ fun entry member => files entry (early.subset member))
      · rw [← runs, (Workplace.run_of_invalid invalid _ _).1] at completed
        contradiction

/-- Nothing can keep a generation from failing whose first round finds invalid declarations. -/
theorem Disk.generate_of_invalid (disk : Disk) {directories : FilePath × FilePath} {index : Index}
    {diagnostics : List Diagnostic}
    (located : build.directories environment = .ok directories)
    (surveyed : (disk.survey build.settings directories.1 tree).result = .ok index)
    (invalid : Intake.ofRulings (Intake.rulings [] [] index.candidates) = .error diagnostics)
    : ∃ failure, (disk.generate build environment tree).result = .error failure := by
  unfold generate
  simp only [located]
  rw [(Reply.andThen_of_ok surveyed).1]
  generalize (disk.survey build.settings directories.1 tree).state = read
  have stage := disk.stage_generateInto build.settings directories.2 index read
  unfold Reply.map
  generalize (disk.generateInto build.settings directories.2 index read).result = result,
    (disk.generateInto build.settings directories.2 index read).state = after at stage
  cases stage with
  | opening => exact ⟨_, rfl⟩
  | running => exact ⟨_, rfl⟩
  | finishing _ runs completed =>
      rw [← runs, (Workplace.run_of_invalid invalid _ _).1] at completed
      contradiction

/-- A generation that fails does so safely, if the manifest that it finds, if any, was left by a run that
finished.
-/
theorem generate_fails_safely (mayFail : disk.MayFail)
    (left
      : ∀ directories,
          build.directories environment = .ok directories
          → ∀ text,
              (tree.ensureDirectory directories.2).1.readText (manifestPath directories.2) = .ok text
              → LeftByFinish text)
    (failed : (disk.generate build environment tree).result = .error failure)
    : FailsSafely disk build environment tree failure
        (disk.generate build environment tree).state := by
  unfold Disk.generate at failed ⊢
  cases located : build.directories environment with
  | error fault => exact .refl
  | ok directories =>
      simp only [located] at failed ⊢
      have read := mayFail.state_survey build.settings directories.1 tree
      cases surveyed : (disk.survey build.settings directories.1 tree).result with
      | error fault =>
          rw [Reply.state_andThen_of_error surveyed, read]
          exact .refl
      | ok index =>
          obtain ⟨result, state⟩ := Reply.andThen_of_ok surveyed
          rw [state, read]
          rw [result, read] at failed
          obtain ⟨manifests, noSettings, firstRound⟩ :=
            mayFail.generateInto_fails (validate_of_directories located)
              (left directories located) (Reply.map_eq_error failed)
          refine ⟨manifests, fun _ _ _ => manifests.readText_eq,
            fun fault same => absurd same (noSettings fault), ?_, ?_⟩
          · intro others fault same refused
            obtain rfl : directories = others := Except.ok.inj (located.symm.trans same)
            rw [surveyed] at refused
            contradiction
          · intro others found diagnostics same ok invalid
            obtain rfl : directories = others := Except.ok.inj (located.symm.trans same)
            obtain rfl : index = found := Except.ok.inj (surveyed.symm.trans ok)
            exact firstRound diagnostics invalid

-- An earlier run has left its manifest, and a source that marks a function on its own has come since.

/-- A build from `src` into `out`. -/
def srcIntoOut : Build where
  sources := some ⟨"src"⟩
  output := some ⟨"out"⟩

/-- A marked function outside of any block. -/
def loneFunction : FileTree :=
  ⟨[(["src"], .directory), (["src", "lib.rs"], .file (.text "#[inject]fn make(){}"))]⟩

/-- What a run over a pool has written beside that source. -/
def besideLoneFunction : DirectoryStore × FileTree :=
  (DirectoryStore.write (storeOfOut, (DirectoryStore.openAt ⟨"out"⟩ loneFunction).state)
    (netFactory "Pool" "pool")).state

/-- What it has left when it finished. -/
def aroundLoneFunction : FileTree :=
  (besideLoneFunction.1.finish besideLoneFunction.2).state

/-- What the runs come to, in one go. -/
theorem results_of_loneFunction
    : (DirectoryStore.openAt ⟨"out"⟩ loneFunction).result.toOption = some storeOfOut
      ∧ (DirectoryStore.write (storeOfOut, (DirectoryStore.openAt ⟨"out"⟩ loneFunction).state)
            (netFactory "Pool" "pool")).result.toOption
        = some ()
      ∧ (besideLoneFunction.1.finish besideLoneFunction.2).result.toOption
        = some (recording [netFactory "Pool" "pool"])
      ∧ (srcIntoOut.directories {}).toOption = some (⟨"src"⟩, ⟨"out"⟩)
      ∧ (Disk.plain.survey srcIntoOut.settings ⟨"src"⟩ aroundLoneFunction).result.toOption.map
            (fun index => (Intake.ofRulings (Intake.rulings [] [] index.candidates)).toOption)
        = some none := by
  decide +kernel

/-- The run before leaves a pool beside the function. -/
theorem completed_loneFunction
    : Completed ⟨"out"⟩ loneFunction [netFactory "Pool" "pool"]
        (recording [netFactory "Pool" "pool"]) aroundLoneFunction := by
  rw [aroundLoneFunction]
  obtain ⟨opened, taken, finished, _⟩ := results_of_loneFunction
  have reached : Reached ⟨"out"⟩ loneFunction [netFactory "Pool" "pool"] besideLoneFunction :=
    .taken (.opened (eq_ok_of_toOption_eq_some opened)) (eq_ok_of_toOption_eq_some taken)
  exact reached.completed (eq_ok_of_toOption_eq_some finished)

/-- The build fails in its first round, and leaves the manifest of the earlier run and all files. The
first round reports the function, which constructs nothing.
-/
theorem generate_fails_safely_loneFunction
    : ∃ failure,
        (srcIntoOut.generate {} aroundLoneFunction).result = .error failure
        ∧ (srcIntoOut.generate {} aroundLoneFunction).state.readText (manifestPath ⟨"out"⟩)
          = .ok (recording [netFactory "Pool" "pool"]).text
        ∧ aroundLoneFunction.AddsDirectories (srcIntoOut.generate {} aroundLoneFunction).state := by
  obtain ⟨_, _, _, directories, rulings⟩ := results_of_loneFunction
  have located := eq_ok_of_toOption_eq_some directories
  have completed := completed_loneFunction
  generalize aroundLoneFunction = tree at rulings completed ⊢
  have left (others : FilePath × FilePath) (same : srcIntoOut.directories {} = .ok others)
      (text : String)
      (read : (tree.ensureDirectory others.2).1.readText (manifestPath others.2) = .ok text)
      : LeftByFinish text := by
    obtain rfl := Except.ok.inj (located.symm.trans same)
    exact completed.leftByFinish read
  obtain ⟨index, surveyed, refused⟩ := Option.map_eq_some_iff.mp rulings
  have surveyed := eq_ok_of_toOption_eq_some surveyed
  cases invalid : Intake.ofRulings (Intake.rulings [] [] index.candidates) with
  | ok intake =>
      rw [invalid] at refused
      cases refused
  | error diagnostics =>
      obtain ⟨failure, failed⟩ := Disk.plain.generate_of_invalid located surveyed invalid
      have safe := generate_fails_safely Disk.mayFail_plain left failed
      have kept := safe.manifest (⟨"src"⟩, ⟨"out"⟩) _ located completed.readText_eq
      have files := safe.firstRound _ _ _ located surveyed invalid
      rw [← Disk.generate_plain]
      exact ⟨failure, failed, kept, files⟩

end Build

end Wiring
