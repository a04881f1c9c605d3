import Wiring.Proofs.FilePath.Parents
import Wiring.Proofs.Generation.DistinctFiles
import Wiring.Proofs.Generation.Mishaps
import Wiring.Proofs.Store.Confinement

/-! Where a run writes. A factory goes down the directories of its module, and so does the component if
the settings name a directory at each step. Then nothing that a run writes is outside of its directory.
The settings are only read as a path, though, and what stands in a comment there leads anywhere.
-/

namespace Wiring

-----------------------------------------------------------------------------------------
-- Paths of artifacts
-----------------------------------------------------------------------------------------

/-- Every name in the steps of a path is one. A piece has no slash, and one that is empty or a dot
makes no name.
-/
theorem FilePath.isSegment_of_mem_steps {path : FilePath} {text : String}
    (member : .name text ∈ path.steps)
    : IsSegment text := by
  have inner {piece : String} (noSlash : '/' ∉ piece.toList)
      (step : innerStep? piece = some (.name text))
      : IsSegment text := by
    unfold innerStep? at step
    split at step
    · simp at step
    · rename_i spoken
      split at step
      · simp at step
      · rename_i noDots
        obtain rfl : piece = text := by simpa using step
        exact ⟨noSlash, fun empty => spoken (.inl empty), fun dot => spoken (.inr dot), noDots⟩
  obtain ⟨first, rest, split⟩ := path.exists_pieces_eq_cons
  have noSlash : ∀ piece ∈ first :: rest, '/' ∉ piece.toList :=
    fun piece among => not_mem_of_mem_pieces (split ▸ among)
  by_cases written : first ≠ "" ∨ rest ≠ []
  · rw [steps_of_pieces split written, List.mem_append, Option.mem_toList] at member
    rcases member with leading | later
    · unfold leadingStep? at leading
      split at leading
      · simp at leading
      · split at leading
        · simp at leading
        · exact inner (noSlash first List.mem_cons_self) leading
    · obtain ⟨piece, among, step⟩ := List.mem_filterMap.mp later
      exact inner (noSlash piece (List.mem_cons_of_mem first among)) step
  · obtain ⟨rfl, rfl⟩ : first = "" ∧ rest = [] := by simpa [not_or] using written
    simp [steps, split] at member

/-- The path of an artifact has just the names of its directories and its file where each of them is
one name in a path.
-/
theorem Artifact.steps_relativePath_iff {artifact : Artifact}
    : artifact.relativePath.steps = artifact.pathNames.map .name ↔ artifact.GoesDown := by
  refine ⟨fun steps => ?_, GoesDown.steps_relativePath⟩
  have each : ∀ name ∈ artifact.pathNames, FilePath.IsSegment name := by
    intro name member
    have step : .name name ∈ artifact.relativePath.steps := steps ▸ List.mem_map_of_mem member
    exact FilePath.isSegment_of_mem_steps step
  obtain ⟨home, file⟩ := List.forall_mem_append.mp each
  exact ⟨home, List.forall_mem_singleton.mp file⟩

/-- So it is for the component exactly where the settings place it. -/
theorem Emission.goesDown_component_iff {settings : Settings} {injectables : List Injectable}
    {made : Artifact} (succeeds : component settings injectables = .ok made)
    : made.GoesDown ↔ settings.PlacesComponent := by
  refine ⟨fun down => ?_, fun places => goesDown_of_component places succeeds⟩
  obtain ⟨home, name, _⟩ := eq_of_component succeeds
  refine ⟨home ▸ down.home, fun slash => down.file.noSlash ?_⟩
  rw [Artifact.fileName, name, String.toList_append, List.mem_append]
  exact .inl (SnakeCase.mem_ofName_of_mem (by decide) slash)

-----------------------------------------------------------------------------------------
-- Runs
-----------------------------------------------------------------------------------------

namespace Build

open DirectoryStore FileTree

variable {settings : Settings}

/-- What a generation may write goes down: factories because their modules are paths, and the component
because its place is.
-/
theorem goesDown_of_mayWrite (places : settings.PlacesComponent) {artifact : Artifact}
    (may : MayWrite settings artifact)
    : artifact.GoesDown := by
  cases may with
  | factory made => exact (Emission.isNamed_of_factory? made).goesDown
  | component made => exact Emission.goesDown_of_component places made

/-- So writing keeps a store confined. -/
theorem keeps_confined (places : settings.PlacesComponent) (root : FilePath) (base : List String)
    (start : FileTree)
    : DirectoryStore.write.Keeps settings (Confined root base start) :=
  fun _ _ may confined => confined.write (goesDown_of_mayWrite places may)

/-- Where the settings place the component, a generation writes files below its directory only, whether
or not it succeeds. Opening adds directories, and the run and its end keep the store confined to the
directory it was opened in.
-/
theorem writesBelow_generateInto (places : settings.PlacesComponent) (output : FilePath)
    (index : Index) (tree : FileTree)
    : tree.WritesBelow output (generateInto settings output index tree).state := by
  have opening := addsDirectories_openAt output tree
  have stage := Disk.plain.stage_generateInto settings output index tree
  rw [Disk.generateInto_plain] at stage
  generalize (generateInto settings output index tree).result = result,
    (generateInto settings output index tree).state = state at stage
  have ran {store : DirectoryStore} {ran : Reply (Workplace (DirectoryStore × FileTree)) Summary}
      (opened : (openAt output tree).result = .ok store)
      (runs
        : Workplace.run DirectoryStore.write
            ⟨{ settings }, index, (store, (openAt output tree).state)⟩
          = ran)
      : ∃ base, Confined output base (openAt output tree).state ran.state.store := by
    obtain ⟨base, confined⟩ := confined_of_openAt opened
    rw [← runs]
    exact ⟨base, (Workplace.beside_run (keeps_confined places output base _) index confined).store⟩
  cases stage with
  | opening => exact opening.writesBelow output
  | running opened runs =>
      obtain ⟨base, confined⟩ := ran opened runs
      exact opening.writesBelow_trans (confined.outside.writesBelow confined.reaches)
  | finishing opened runs =>
      obtain ⟨base, confined⟩ := ran opened runs
      exact opening.writesBelow_trans confined.writesBelow_finish

/-- Where artifacts go, and what a generation writes on that account. The path of a factory has just the
names of its module's directories and of its file. So has the path of the component where, and only
where, the settings place it; and then a generation writes no file outside of its directory.
-/
theorem artifacts_stay_inside (settings : Settings) (output : FilePath) (index : Index)
    (tree : FileTree)
    : (∀ injectable factory,
        Emission.factory? injectable = some factory
        → factory.relativePath.steps = factory.pathNames.map .name)
      ∧ (∀ injectables component,
        Emission.component settings injectables = .ok component
        → (component.relativePath.steps = component.pathNames.map .name
            ↔ settings.PlacesComponent))
      ∧ (settings.PlacesComponent
        → tree.WritesBelow output (generateInto settings output index tree).state) := by
  refine ⟨fun injectable factory made => ?_, fun injectables component made => ?_, fun places => ?_⟩
  · exact (Emission.isNamed_of_factory? made).goesDown.steps_relativePath
  · rw [Artifact.steps_relativePath_iff, Emission.goesDown_component_iff made]
  · exact writesBelow_generateInto places output index tree

/-- A generation over the client with the default settings. -/
theorem artifacts_stay_inside_client
    : FileTree.WritesBelow ⟨"out"⟩ {}
        (generateInto {} ⟨"out"⟩ Workplace.clientIndex {}).state :=
  (artifacts_stay_inside {} ⟨"out"⟩ Workplace.clientIndex {}).2.2
    (Settings.placesComponent_of_isPath (by decide +kernel) (by decide +kernel))

/-- The namespace is one segment in the crate, behind which a comment leads up and out. -/
def escaping : Settings where
  componentNamespace := "crate::q//::..::..::escaped"

/-- What a generation from nothing into the directory `out` makes with these settings. -/
def escapingReply : Reply FileTree Summary :=
  generateInto escaping ⟨"out"⟩ { marker := "inject" } {}

/-- What comes of the generation, in one go. -/
theorem escapingReply_eq
    : escaping.validate = .ok escaping
      ∧ escapingReply.result.toOption.isSome = true
      ∧ (Emission.component escaping []).toOption.isSome = true
      ∧ escapingReply.state.node? ["escaped", "tiny_di_component.rs"]
        = (Emission.component escaping []).toOption.map
            (fun made => FileNode.file (.text made.content))
      ∧ escapingReply.state.follow [] (FilePath.mk "out").steps = .node ["out"] .directory := by
  decide +kernel

/-- The settings are valid and the generation succeeds, with its component beside its directory. -/
theorem generateInto_escapes
    : escaping.validate = .ok escaping
      ∧ ∃ summary component,
          (generateInto escaping ⟨"out"⟩ { marker := "inject" } {}).result = .ok summary
          ∧ Emission.component escaping [] = .ok component
          ∧ (generateInto escaping ⟨"out"⟩ { marker := "inject" } {}).state.node?
              ["escaped", "tiny_di_component.rs"]
            = some (.file (.text component.content))
          ∧ ¬ FileTree.WritesBelow ⟨"out"⟩ {}
              (generateInto escaping ⟨"out"⟩ { marker := "inject" } {}).state := by
  obtain ⟨valid, completes, makes, held, reaches⟩ := escapingReply_eq
  obtain ⟨summary, completed⟩ := Option.isSome_iff_exists.mp completes
  obtain ⟨component, made⟩ := Option.isSome_iff_exists.mp makes
  rw [made, Option.map_some] at held
  rw [← escapingReply]
  refine ⟨valid, summary, component, eq_ok_of_toOption_eq_some completed,
    eq_ok_of_toOption_eq_some made, held, fun below => ?_⟩
  rcases below _ _ held with before | ⟨base, leads, inside⟩
  · simp [FileTree.node?] at before
  · rw [reaches, Place.node.injEq] at leads
    obtain ⟨rfl, _⟩ := leads
    exact absurd inside (by decide)

end Build

end Wiring
