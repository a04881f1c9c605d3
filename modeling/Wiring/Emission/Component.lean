import Wiring.Emission.Words
import Wiring.Settings

/-! The component: a closed table with one row for each injectable, a function that constructs each
of them from resolved parameters, and the name of the resolver over that table.
-/

namespace Wiring.Emission

/-- The function that constructs the injectable at a row of the table. -/
def constructorName (index : Nat) (injectable : Injectable) : String :=
  "construct_" ++ toString index ++ "_" ++ SnakeCase.ofName injectable.target.name

/-- The row of an injectable and the function it refers to. -/
structure ComponentRow where
  entry : String
  function : String
  deriving DecidableEq, Inhabited, Repr

/-- The statement that resolves one parameter. -/
def resolution? (name : String) (type : TypeName) : Option String :=
  (typePath? type).map fun path =>
    "let " ++ name ++ " = resolver . resolve_as :: < " ++ path ++ " > () ? ; "

/-- What resolves the parameters of a constructor, in turn. -/
def resolutions? (types : List TypeName) : Option (List String) :=
  ((argumentNames types.length).zip types).mapM fun (name, type) => resolution? name type

/-- The row of one injectable, if all its names are words of the language. -/
def row? (runtime dispatch : String) (index : Nat) (injectable : Injectable)
    : Option ComponentRow := do
  let function ← word? (constructorName index injectable)
  let target ← typePath? injectable.target
  let factory ← beside? injectable.target injectable.factoryName
  let resolutions ← resolutions? injectable.parameters
  let resolver := if injectable.parameters.isEmpty then "_resolver" else "resolver"
  some {
    entry :=
      runtime ++ " :: Entry :: new (" ++ runtime ++ " :: TypeKey :: of :: < " ++ target ++ " > , "
        ++ function ++ ")"
    function :=
      "fn " ++ function ++ " (" ++ resolver ++ " : & " ++ runtime ++ " :: Resolver < " ++ dispatch
        ++ " >) -> " ++ runtime ++ " :: Result < " ++ runtime ++ " :: Instance > \x7b "
        ++ String.join resolutions ++ "Ok (:: std :: sync :: Arc :: new (" ++ factory
        ++ " :: create (" ++ commaSeparated (argumentNames injectable.arity) ++ "))) \x7d"
  }

/-- The rows of all injectables, numbered in their order. -/
def rows? (runtime dispatch : String) (injectables : List Injectable)
    : Option (List ComponentRow) :=
  injectables.zipIdx.mapM fun (injectable, index) => row? runtime dispatch index injectable

/-- The tokens of a component with the given rows. -/
def componentCode (runtime component dispatch : String) (rows : List ComponentRow) : String :=
  "pub enum " ++ dispatch ++ " \x7b \x7d impl " ++ runtime ++ " :: Dispatch for " ++ dispatch
    ++ " \x7b const ENTRIES : & 'static [" ++ runtime ++ " :: Entry < Self >] = & ["
    ++ commaSeparated (rows.map ComponentRow.entry) ++ "] ; \x7d pub type " ++ component ++ " = "
    ++ runtime ++ " :: Resolver < " ++ dispatch ++ " > ;"
    ++ String.join (rows.map fun row => " " ++ row.function)

/-- The injectables in the order of their rows. -/
def inRowOrder (injectables : List Injectable) : List Injectable :=
  injectables.mergeSort fun left right => left.target.notAfter right.target

/-- Adds a file to an ascending list of files. Another spelling of it that is there gives way. -/
def insertFile (file : FilePath) : List FilePath → List FilePath
  | [] => [file]
  | first :: rest =>
      if file.before first then file :: first :: rest
      else if file.same first then file :: rest
      else first :: insertFile file rest

/-- The files that declare the injectables, each once, in ascending order. Of several spellings of a
file the last one stays.
-/
def declaringFiles (injectables : List Injectable) : List FilePath :=
  injectables.foldl (fun files injectable => insertFile injectable.location.file files) []

/-- The name without the mark of a raw identifier. -/
def bareName (name : String) : String :=
  match name.toList with
  | 'r' :: '#' :: rest => String.ofList rest
  | _ => name

/-- The component of the injectables. A setting or a name that is no word stands in its way. -/
def component (settings : Settings) (injectables : List Injectable) : Except Failure Artifact :=
  match Source.readPath? settings.runtimePath with
  | none => .error (.settings (.runtimePath settings.runtimePath))
  | some runtime =>
      match Source.readIdentifier? settings.componentName with
      | none => .error (.settings (.componentName settings.componentName))
      | some component =>
          let dispatch := bareName component ++ "Dispatch"
          let ordered := inRowOrder injectables
          match rows? runtime dispatch ordered with
          | none => .error .notAnIdentifier
          | some rows =>
              .ok {
                home := settings.componentNamespace
                name := settings.componentName
                kind := .component
                content := render (componentCode runtime component dispatch rows)
                origins := ⟨true, declaringFiles ordered⟩
              }

end Wiring.Emission
