import Wiring.Build
import Wiring.Proofs.Generation.Preservation
import Wiring.Proofs.Store.Histories

/-! Mishaps. Reading, writing and removing files may fail for a cause that is not in the tree, such as a
full disk. So a generation is looked at over any operations on files that do what they should, or fail
and leave what they had done by then. With the operations as they are it is the generation itself.
-/

namespace Wiring.Build

open DirectoryStore FileTree

/-- The operations of a generation that read files or change them. -/
structure Disk where
  survey : Settings → FilePath → FileTree → Reply FileTree Index
  openAt : FilePath → FileTree → Reply FileTree DirectoryStore
  write : Writer (DirectoryStore × FileTree)
  finish : DirectoryStore → FileTree → Reply FileTree Manifest

namespace Disk

/-- The operations as they are. -/
def plain : Disk :=
  ⟨Build.survey, DirectoryStore.openAt, DirectoryStore.write, DirectoryStore.finish⟩

variable (disk : Disk)

/-- Generates from an index into a directory, with these operations. -/
def generateInto (settings : Settings) (output : FilePath) (index : Index) (tree : FileTree)
    : Reply FileTree Summary :=
  (disk.openAt output tree).andThen fun tree store =>
    (((Generation.run disk.write settings index (store, tree)).lift (·.2)).andThen
      fun state summary =>
        ((disk.finish state.1 state.2).lift fun tree => (state.1, tree)).andThen
          fun state manifest =>
            .telling
              [.stored manifest.artifacts.size output state.1.written state.1.unchanged]
              (.done state summary)).lift (·.2)

/-- A generation on a disk that may fail. -/
def generate (build : Build) (environment : Environment) (tree : FileTree)
    : Reply FileTree BuildReport :=
  match build.directories environment with
  | .error fault => .failed tree (.settings fault)
  | .ok directories =>
      (disk.survey build.settings directories.1 tree).andThen fun tree index =>
        (disk.generateInto build.settings directories.2 index tree).map fun summary =>
          ⟨summary, if build.announces then announcement directories.1 else []⟩

/-- A disk that does not fail is the directory store. -/
theorem generateInto_plain : plain.generateInto = Build.generateInto :=
  rfl

/-- So a generation on it is the real one. -/
theorem generate_plain : plain.generate = Build.generate := by
  funext build environment tree
  unfold generate Build.generate
  cases build.directories environment with
  | error fault => rfl
  | ok directories => rfl

/-- Each operation does what it should, or fails over a file. Reading has changed nothing by then,
opening and writing may have created directories, and finishing may have removed some of what is stale.
-/
structure MayFail : Prop where
  survey
    : ∀ settings sources tree,
        disk.survey settings sources tree = Build.survey settings sources tree
        ∨ ∃ path,
            (disk.survey settings sources tree).result = .error (.inputOutput path)
            ∧ (disk.survey settings sources tree).state = tree
  openAt
    : ∀ root tree,
        disk.openAt root tree = DirectoryStore.openAt root tree
        ∨ ∃ path,
            (disk.openAt root tree).result = .error (.inputOutput path)
            ∧ tree.AddsDirectories (disk.openAt root tree).state
  write
    : ∀ state artifact,
        disk.write state artifact = DirectoryStore.write state artifact
        ∨ ∃ path,
            (disk.write state artifact).result = .error (.inputOutput path)
            ∧ (disk.write state artifact).state.1 = state.1
            ∧ state.2.AddsDirectories (disk.write state artifact).state.2
  finish
    : ∀ store tree,
        disk.finish store tree = DirectoryStore.finish store tree
        ∨ ∃ path removed,
            (disk.finish store tree).result = .error (.inputOutput path)
            ∧ removed <+: store.stale
            ∧ (disk.finish store tree).state = (removeEach store.root tree removed).state

/-- A disk that may fail need not. -/
theorem mayFail_plain : plain.MayFail :=
  ⟨fun _ _ _ => .inl rfl, fun _ _ => .inl rfl, fun _ _ => .inl rfl, fun _ _ => .inl rfl⟩

/-- How far a generation into a directory has come when it ends: the store did not open, the run failed,
or the run succeeded and then the store finished, or failed to.
-/
inductive Stage (settings : Settings) (output : FilePath) (index : Index) (tree : FileTree)
    : Except Failure Summary → FileTree → Prop
  | opening {failure} (failed : (disk.openAt output tree).result = .error failure)
    : Stage settings output index tree (.error failure) (disk.openAt output tree).state
  | running {store failure ran} (opened : (disk.openAt output tree).result = .ok store)
    (runs
      : Workplace.run disk.write ⟨{ settings }, index, (store, (disk.openAt output tree).state)⟩
        = ran)
    (failed : ran.result = .error failure)
    : Stage settings output index tree (.error failure) ran.state.store.2
  | finishing {store summary ran} (opened : (disk.openAt output tree).result = .ok store)
    (runs
      : Workplace.run disk.write ⟨{ settings }, index, (store, (disk.openAt output tree).state)⟩
        = ran)
    (completed : ran.result = .ok summary)
    : Stage settings output index tree
        ((disk.finish ran.state.store.1 ran.state.store.2).result.map fun _ => summary)
        (disk.finish ran.state.store.1 ran.state.store.2).state

/-- A generation has come to one of its stages, by cases on which of its steps was the last. -/
theorem stage_generateInto (settings : Settings) (output : FilePath) (index : Index)
    (tree : FileTree)
    : disk.Stage settings output index tree (disk.generateInto settings output index tree).result
        (disk.generateInto settings output index tree).state := by
  unfold generateInto
  rcases opens : disk.openAt output tree with ⟨before, told, failure | store⟩
  · have stage : disk.Stage settings output index tree (.error failure) _ :=
      .opening (by rw [opens])
    rw [opens] at stage
    exact stage
  · have opened : (disk.openAt output tree).result = .ok store := by rw [opens]
    have started : (disk.openAt output tree).state = before := by rw [opens]
    dsimp only [Reply.andThen, Reply.telling, Generation.run, Reply.lift]
    rcases runs : Workplace.run disk.write ⟨{ settings }, index, (store, before)⟩
      with ⟨⟨generation, left, last, middle⟩, more, failure | summary⟩
    · exact .running opened (started ▸ runs) rfl
    · have stage := Stage.finishing opened (started ▸ runs) rfl
      dsimp only at stage ⊢
      rcases finishes : disk.finish last middle with ⟨after, final, failure | manifest⟩
      · rw [finishes] at stage
        exact stage
      · rw [finishes] at stage
        exact stage

end Disk

end Wiring.Build
