import Wiring.Location
import Wiring.TypeName

/-! Why generating can fail, cause by cause, and the wording of each cause. -/

namespace Wiring

/-- What is wrong with a marked declaration. -/
inductive DiagnosticKind
  | notAConstructor
  | genericOwner
  | unsupportedParameter
  | duplicateBinding
  deriving DecidableEq, Inhabited, Repr

/-- How a kind of complaint is named. -/
def DiagnosticKind.text : DiagnosticKind → String
  | notAConstructor => "not a constructor"
  | genericOwner => "generic owner"
  | unsupportedParameter => "unsupported parameter"
  | duplicateBinding => "duplicate binding"

/-- One rejected declaration. -/
structure Diagnostic where
  kind : DiagnosticKind
  location : Location
  declaration : String
  explanation : String
  deriving DecidableEq, Inhabited, Repr

/-- The line that reports a complaint. -/
def Diagnostic.message (diagnostic : Diagnostic) : String :=
  diagnostic.location.text ++ " " ++ diagnostic.declaration ++ ": " ++ diagnostic.kind.text ++ ": "
    ++ diagnostic.explanation

/-- What is wrong with settings. -/
inductive SettingsFault
  | marker (text : String)
  | componentName (text : String)
  | componentNamespace (text : String)
  | runtimePath (text : String)
  | noRounds
  | roundsNotANumber (text : String)
  | notAFlag (key text : String)
  | noSourceDirectory
  | noOutputDirectory
  deriving DecidableEq, Inhabited, Repr

/-- What is reported of a fault in the settings. -/
def SettingsFault.message : SettingsFault → String
  | marker text => "marker `" ++ text ++ "` is not an identifier"
  | componentName text => "component name `" ++ text ++ "` is not an identifier"
  | componentNamespace text => "component namespace `" ++ text ++ "` is not a path"
  | runtimePath text => "runtime path `" ++ text ++ "` is not a path"
  | noRounds => "max_rounds must be at least 1"
  | roundsNotANumber text => "TINYDI_MAX_ROUNDS is not a number: " ++ text
  | notAFlag key text => key ++ " is not a boolean: " ++ text
  | noSourceDirectory => "CARGO_MANIFEST_DIR is not set and no source_dir was given"
  | noOutputDirectory => "OUT_DIR is not set and no out_dir was given"

/-- Why a run fails. -/
inductive Failure
  | invalid (diagnostics : List Diagnostic)
  /-- Declarations, each with its location, that no round could resolve. -/
  | unresolved (rounds : Nat) (declarations : List (String × Location))
  | cycle (path : List TypeName)
  | clash (file : FilePath) (first second : String)
  | unparsable (file : FilePath)
  | inputOutput (file : FilePath)
  | manifest
  | settings (fault : SettingsFault)
  /-- A text that is no identifier was to stand as one in generated code. -/
  | notAnIdentifier
  deriving DecidableEq, Inhabited, Repr

namespace Failure

/-- What is reported of a failure. -/
def message : Failure → String
  | invalid diagnostics =>
      "Invalid injectable declarations:\n"
        ++ Text.joinWith "\n" (diagnostics.map fun diagnostic => "  " ++ diagnostic.message)
  | unresolved rounds declarations =>
      "Unresolved symbols after " ++ toString rounds ++ " rounds: "
        ++ Text.joinWith ", "
          (declarations.map fun (name, location) => name ++ " (" ++ location.text ++ ")")
  | cycle path =>
      "Dependency cycle detected: " ++ Text.joinWith " -> " (path.map TypeName.qualified)
  | clash file first second =>
      "Artifacts " ++ first ++ " and " ++ second ++ " both map to " ++ file.text
  | unparsable file => "Failed to parse " ++ file.text
  | inputOutput file => "I/O error on " ++ file.text
  | manifest => "Manifest error"
  | settings fault => "Invalid configuration: " ++ fault.message
  | notAnIdentifier => "not an identifier"

end Failure

end Wiring
