import Wiring.Generation.Run
import Wiring.Store.Directory

/-! A build step: it reads the source files below one directory and generates into another. Where
these are not given, they come from the environment of the build.
-/

namespace Wiring

/-- A run as a build script sets it up. -/
structure Build where
  settings : Settings := {}
  sources : Option FilePath := none
  output : Option FilePath := none
  /-- Whether the host is told what to watch for changes. -/
  announces : Bool := false
  deriving DecidableEq, Repr

/-- What a build has made, and the lines it prints for the host. -/
structure BuildReport where
  summary : Summary
  lines : List String
  deriving DecidableEq, Repr

namespace Build

/-- A build with the settings of the environment. -/
def ofEnvironment (environment : Environment) : Except SettingsFault Build :=
  (Settings.ofEnvironment environment).map fun settings => { settings }

/-- The source directory: the given one, or `src` in the directory of the package. -/
def sourceDirectory (build : Build) (environment : Environment) : Except SettingsFault FilePath :=
  match build.sources, environment.get? "CARGO_MANIFEST_DIR" with
  | some directory, _ => .ok directory
  | none, some package => .ok ((FilePath.mk package).join "src")
  | none, none => .error .noSourceDirectory

/-- Where the files go: to the directory that was set, or else to that of the environment. -/
def outputDirectory (build : Build) (environment : Environment) : Except SettingsFault FilePath :=
  match build.output, environment.get? "OUT_DIR" with
  | some directory, _ => .ok directory
  | none, some directory => .ok ⟨directory⟩
  | none, none => .error .noOutputDirectory

/-- The source and the output directory of a build with valid settings. -/
def directories (build : Build) (environment : Environment)
    : Except SettingsFault (FilePath × FilePath) := do
  let _ ← build.settings.validate
  let sources ← build.sourceDirectory environment
  let output ← build.outputDirectory environment
  return (sources, output)

/-- What the host is told to watch. -/
def announcement (sources : FilePath) : List String :=
  ("cargo:rerun-if-changed=" ++ sources.text)
    :: Settings.variableNames.map fun key => "cargo:rerun-if-env-changed=" ++ key

/-- An index of the source files below a directory. -/
def survey (settings : Settings) (sources : FilePath) (tree : FileTree) : Reply FileTree Index :=
  match Index.takeBelow tree sources { marker := settings.marker } with
  | ⟨index, events, .ok files⟩ => ⟨tree, events ++ [.readBelow files sources], .ok index⟩
  | ⟨_, events, .error failure⟩ => ⟨tree, events, .error failure⟩

/-- Generates from an index into a directory and ends the run there. -/
def generateInto (settings : Settings) (output : FilePath) (index : Index) (tree : FileTree)
    : Reply FileTree Summary :=
  (DirectoryStore.openAt output tree).andThen fun tree store =>
    (((Generation.run DirectoryStore.write settings index (store, tree)).lift (·.2)).andThen
      fun (store, tree) summary =>
        ((store.finish tree).lift fun tree => (store, tree)).andThen fun (store, tree) manifest =>
          .telling [.stored manifest.artifacts.size output store.written store.unchanged]
            (.done (store, tree) summary)).lift (·.2)

/-- Runs a build. Nothing is read or written unless the settings hold and both directories are known. -/
def generate (build : Build) (environment : Environment) (tree : FileTree)
    : Reply FileTree BuildReport :=
  match build.directories environment with
  | .error fault => .failed tree (.settings fault)
  | .ok (sources, output) =>
      (survey build.settings sources tree).andThen fun tree index =>
        (generateInto build.settings output index tree).map fun summary =>
          ⟨summary, if build.announces then announcement sources else []⟩

end Build

end Wiring
