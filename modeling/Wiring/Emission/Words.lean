import Wiring.Artifact
import Wiring.Injectable
import Wiring.Source.Identifier

/-! The printed words of generated code. A text that is no identifier has no word, and code that
needs it is not generated.
-/

namespace Wiring.Emission

open Source

/-- A text that is one word of the language. -/
def word? (text : String) : Option String :=
  if Identifier.isToken text then some text else none

/-- A path of names: local ones start at the crate, all others at the root. -/
def path? (text : String) : Option String := do
  let words ← (Segments.split (Segments.dropLeading text)).mapM word?
  let joined := Text.joinWith " :: " words
  some (if words.head? = some "crate" then joined else ":: " ++ joined)

/-- The path of a type, as its tokens are printed. -/
def typePath? (type : TypeName) : Option String :=
  path? type.qualified

/-- The path of something beside the type, in the same module. -/
def beside? (type : TypeName) (name : String) : Option String :=
  path? (Segments.within type.home name)

/-- The names that stand for the arguments of a constructor. -/
def argumentNames (count : Nat) : List String :=
  (List.range count).map fun index => "p" ++ toString index

/-- Tokens with commas between them. -/
def commaSeparated (words : List String) : String :=
  Text.joinWith " , " words

/-- The line that every generated file starts with. -/
def header : String :=
  "// @generated by tinydi-codegen. Do not edit.\n"

/-- The content of a generated file. -/
def render (code : String) : String :=
  header ++ code ++ "\n"

end Wiring.Emission
