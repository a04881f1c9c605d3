import Wiring.Failure
import Wiring.Json.Reader
import Wiring.Source.File
import Wiring.Unicode.Blank

/-! Settings of a generation: their defaults, the variables and JSON texts they are read from, and
what makes them valid.
-/

namespace Wiring

/-- What a run is told, with its defaults. -/
structure Settings where
  /-- The attribute that marks injectable constructors. -/
  marker : String := "inject"
  /-- The module that the component is meant to be included in. -/
  componentNamespace : String := "crate::di"
  componentName : String := "TinyDiComponent"
  /-- The path of the library that generated code uses. -/
  runtimePath : String := "::tinydi"
  maxRounds : Nat := 8
  /-- Whether a dependency cycle makes the generation fail. -/
  denyCycles : Bool := false
  deriving DecidableEq, Inhabited, Repr

namespace Settings

/-- Reads a count that fits 64 bits: ASCII digits behind an optional plus sign. -/
def count? (text : String) : Option Nat :=
  let digits :=
    match text.toList with
    | '+' :: rest => rest
    | chars => chars
  if digits.isEmpty || !digits.all Char.isDigit then none
  else if Json.natOfDigits digits < Json.naturalLimit then some (Json.natOfDigits digits)
  else none

/-- The form in which a flag is read: no blanks around it, ASCII letters small. -/
def flagWord (text : String) : String :=
  (Unicode.trim text).map Char.toLower

/-- The truth value that a setting's text stands for. -/
def flag? (text : String) : Option Bool :=
  if ["1", "true", "yes", "on"].contains (flagWord text) then some true
  else if ["0", "false", "no", "off", ""].contains (flagWord text) then some false
  else none

/-- The variables that settings are read from. -/
def variableNames : List String :=
  ["TINYDI_MARKER", "TINYDI_COMPONENT_NAMESPACE", "TINYDI_COMPONENT_NAME", "TINYDI_RUNTIME_PATH",
    "TINYDI_MAX_ROUNDS", "TINYDI_DENY_CYCLES"]

/-- The settings after one variable. Variables that are none of theirs change nothing. -/
def assign (settings : Settings) (key value : String) : Except SettingsFault Settings :=
  match key with
  | "TINYDI_MARKER" => .ok { settings with marker := value }
  | "TINYDI_COMPONENT_NAMESPACE" => .ok { settings with componentNamespace := value }
  | "TINYDI_COMPONENT_NAME" => .ok { settings with componentName := value }
  | "TINYDI_RUNTIME_PATH" => .ok { settings with runtimePath := value }
  | "TINYDI_MAX_ROUNDS" =>
      match count? value with
      | some rounds => .ok { settings with maxRounds := rounds }
      | none => .error (.roundsNotANumber value)
  | "TINYDI_DENY_CYCLES" =>
      match flag? value with
      | some deny => .ok { settings with denyCycles := deny }
      | none => .error (.notAFlag key (flagWord value))
  | _ => .ok settings

/-- Assigns all values in turn, up to the first that is refused. -/
def assignAll (settings : Settings) : List (String × String) → Except SettingsFault Settings
  | [] => .ok settings
  | (key, value) :: rest =>
      match settings.assign key value with
      | .ok settings => assignAll settings rest
      | .error fault => .error fault

/-- The first fault of the settings, in the order of their fields. -/
def fault? (settings : Settings) : Option SettingsFault :=
  if (Source.readIdentifier? settings.marker).isNone then some (.marker settings.marker)
  else if (Source.readIdentifier? settings.componentName).isNone then
    some (.componentName settings.componentName)
  else if (Source.readPath? settings.componentNamespace).isNone then
    some (.componentNamespace settings.componentNamespace)
  else if (Source.readPath? settings.runtimePath).isNone then
    some (.runtimePath settings.runtimePath)
  else if settings.maxRounds = 0 then some .noRounds
  else none

/-- The settings themselves, if none of them is at fault. -/
def validate (settings : Settings) : Except SettingsFault Settings :=
  match settings.fault? with
  | some fault => .error fault
  | none => .ok settings

/-- The default path of the runtime is a path, as `decide` finds by reading it. -/
theorem readPath?_default : Source.readPath? ({} : Settings).runtimePath = some ":: tinydi" := by
  decide +kernel

/-- The default name of the component is an identifier, as `decide` finds by reading it. -/
theorem readIdentifier?_default
    : Source.readIdentifier? ({} : Settings).componentName = some "TinyDiComponent" := by
  decide +kernel

/-- The settings after all variables, which must be valid then. -/
def overlay (settings : Settings) (values : List (String × String))
    : Except SettingsFault Settings :=
  match settings.assignAll values with
  | .ok settings => settings.validate
  | .error fault => .error fault

/-- The fields that a settings file may have. -/
def fieldNames : List String :=
  ["marker", "component_namespace", "component_name", "runtime_path", "max_rounds", "deny_cycles"]

/-- A field that may be missing but must have its type when it is there. -/
def field? (read : Json → Option α) (standard : α) : Option Json → Option α
  | none => some standard
  | some json => read json

/-- Settings out of a JSON value; missing fields have their defaults. -/
def ofJson? (json : Json) : Option Settings :=
  let standard : Settings := {}
  match Json.fields? fieldNames json with
  | some [marker, componentNamespace, componentName, runtimePath, maxRounds, denyCycles] => do
      let marker ← field? Json.asText? standard.marker marker
      let componentNamespace ← field? Json.asText? standard.componentNamespace componentNamespace
      let componentName ← field? Json.asText? standard.componentName componentName
      let runtimePath ← field? Json.asText? standard.runtimePath runtimePath
      let maxRounds ← field? Json.asNatural? standard.maxRounds maxRounds
      let denyCycles ← field? Json.asBool? standard.denyCycles denyCycles
      some ⟨marker, componentNamespace, componentName, runtimePath, maxRounds, denyCycles⟩
  | _ => none

/-- The settings that a file with this text gives. -/
def ofJsonText? (text : String) : Option Settings :=
  (Json.ofText? text).bind ofJson?

end Settings

/-- Variables in the order in which they were first set, each with its last value. -/
structure Environment where
  entries : List (String × String) := []
  deriving DecidableEq, Inhabited, Repr

namespace Environment

/-- The environment with one variable set, in the place of its former value if it had one. -/
def set (environment : Environment) (key value : String) : Environment :=
  if environment.entries.any fun (name, _) => name = key then
    ⟨environment.entries.map fun (name, old) => (name, if name = key then value else old)⟩
  else ⟨environment.entries ++ [(key, value)]⟩

/-- The environment after all variables are set in turn. -/
def ofList (values : List (String × String)) : Environment :=
  values.foldl (fun environment (key, value) => environment.set key value) {}

/-- The value of a variable. -/
def get? (environment : Environment) (key : String) : Option String :=
  environment.entries.lookup key

end Environment

/-- The default settings after the variables of the environment. -/
def Settings.ofEnvironment (environment : Environment) : Except SettingsFault Settings :=
  Settings.overlay {} environment.entries

end Wiring
