import Wiring.Source.Grammar.Language
import Wiring.Source.Lexer

/-! The items of a source text, and the short texts that settings are read from. -/

namespace Wiring.Source

open Grammar Lexer

/-- What follows blanks and comments. -/
def skipBlanks : Nat → List Char → List Char
  | 0, chars => chars
  | _, [] => []
  | fuel + 1, char :: rest =>
      if startsLineComment (char :: rest) then
        match (takeLine (char :: rest)).2 with
        | [] => []
        | _ :: after => skipBlanks fuel after
      else if startsBlockComment (char :: rest) then
        match afterComment 1 (rest.drop 1) with
        | some after => skipBlanks fuel after
        | none => char :: rest
      else if isSpace char then skipBlanks fuel rest
      else char :: rest

/-- A first line that starts with `#!` is for the system and not for the language, unless an
attribute starts there.
-/
def dropSystemLine (chars : List Char) : List Char :=
  match chars with
  | '#' :: '!' :: rest =>
      if (skipBlanks rest.length rest).head? = some '[' then chars else chars.dropWhile (· ≠ '\n')
  | _ => chars

/-- The items of a source text, or nothing when it is not one. -/
def Item.ofText? (text : String) : Option (List Item) :=
  (Token.ofChars? (dropSystemLine (dropByteOrderMark text.toList))).bind items?

/-- The items that the characters of a source text are read as. -/
def Item.ofChars? (chars : List Char) : Option (List Item) :=
  (Token.ofChars? (dropSystemLine (dropByteOrderMark chars))).bind items?

/-- The characters of a literal need not be decoded, so that what it holds can be computed. -/
theorem Item.ofText?_ofList (chars : List Char)
    : Item.ofText? (String.ofList chars) = Item.ofChars? chars := by
  rw [Item.ofText?, String.toList_ofList, Item.ofChars?]

/-- The one identifier that the text consists of, blanks and comments aside. -/
def readIdentifier? (text : String) : Option String :=
  match Token.ofText? text with
  | some [.word name _] => if Identifier.isReserved name then none else some name
  | _ => none

/-- The printed text of the one path that the text consists of. -/
def readPath? (text : String) : Option String := do
  let tokens ← Token.ofText? text
  let (_, printed) ← (path (languageFor tokens) .type).allPrinted? tokens
  return Token.textOf printed

end Wiring.Source
