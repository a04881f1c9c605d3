import Wiring.Unicode.IdentifierContinue

/-! Identifiers of the source language: plain ones, raw ones (`r#name`), and the words that are
reserved.
-/

namespace Wiring.Source.Identifier

open Wiring.Unicode

/-- Whether a name may start with a character. -/
def startsName (char : Char) : Bool :=
  char = '_' || isStart char

/-- A name: one starting character, then continuing ones. -/
def isName : List Char → Bool
  | [] => false
  | char :: rest => startsName char && rest.all isContinue

/-- Names that have no raw form. -/
def neverRaw : List String :=
  ["_", "super", "self", "Self", "crate"]

/-- Whether the text can stand as an identifier in generated code. Keywords can. -/
def isToken (text : String) : Bool :=
  match text.toList with
  | 'r' :: '#' :: rest => isName rest && !neverRaw.contains (String.ofList rest)
  | chars => isName chars

/-- The words that name nothing of their own; raw identifiers are never among them. -/
def reserved : List String :=
  ["_", "abstract", "as", "async", "await", "become", "box", "break", "const", "continue",
    "crate", "do", "dyn", "else", "enum", "extern", "false", "final", "fn", "for", "if", "impl",
    "in", "let", "loop", "macro", "match", "mod", "move", "mut", "override", "priv", "pub", "ref",
    "return", "Self", "self", "static", "struct", "super", "trait", "true", "try", "type",
    "typeof", "unsafe", "unsized", "use", "virtual", "where", "while", "yield"]

/-- Whether a word is kept for the language. -/
def isReserved (text : String) : Bool :=
  reserved.contains text

end Wiring.Source.Identifier
