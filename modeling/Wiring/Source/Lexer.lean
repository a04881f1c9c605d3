import Wiring.Source.Literal
import Wiring.Source.Token
import Wiring.Unicode.Blank
import Wiring.Unicode.GraphemeExtend
import Wiring.Unicode.Printable

/-! From characters to tokens. A text is first cut into lexemes, each with the line it starts on,
and the lexemes are then nested by their brackets. A documentation comment becomes the lexemes of
the attribute it stands for.
-/

namespace Wiring.Source

open Wiring.Unicode Identifier

/-- A token, with delimiters that are not yet paired. -/
inductive Lexeme
  | word (text : String) (line : Nat)
  | mark (char : Char) (joint : Bool)
  | literal (text : String)
  | opening (delimiter : Delimiter)
  | closing (delimiter : Delimiter)
  deriving DecidableEq, Repr

namespace Lexer

/-- Blanks, and the two marks that set the writing direction. -/
def isSpace (char : Char) : Bool :=
  isBlank char || char.toNat = 0x200e || char.toNat = 0x200f

/-- What follows the end of a nested comment whose opening, at `depth`, has been read. -/
def afterComment (depth : Nat) : List Char → Option (List Char)
  | [] => none
  | '/' :: '*' :: rest => afterComment (depth + 1) rest
  | '*' :: '/' :: rest => if depth ≤ 1 then some rest else afterComment (depth - 1) rest
  | _ :: rest => afterComment depth rest

/-- Whether the text starts with a line comment that documents nothing. -/
def startsLineComment : List Char → Bool
  | '/' :: '/' :: '/' :: '/' :: _ => true
  | '/' :: '/' :: '/' :: _ => false
  | '/' :: '/' :: '!' :: _ => false
  | '/' :: '/' :: _ => true
  | _ => false

/-- Whether the text starts with a block comment that documents nothing. -/
def startsBlockComment : List Char → Bool
  | '/' :: '*' :: '*' :: '/' :: _ => true
  | '/' :: '*' :: '*' :: '*' :: _ => true
  | '/' :: '*' :: '*' :: _ => false
  | '/' :: '*' :: '!' :: _ => false
  | '/' :: '*' :: _ => true
  | _ => false

/-- A line up to its end, and what follows the line; the newline itself stays. -/
def takeLine : List Char → List Char × List Char
  | [] => ([], [])
  | '\n' :: rest => ([], '\n' :: rest)
  | '\r' :: '\n' :: rest => ([], '\n' :: rest)
  | char :: rest =>
      let (line, after) := takeLine rest
      (char :: line, after)

/-- Whether some carriage return does not end a line together with a line feed. -/
def hasBareReturn : List Char → Bool
  | [] => false
  | '\r' :: '\n' :: rest => hasBareReturn rest
  | '\r' :: _ => true
  | _ :: rest => hasBareReturn rest

/-- The characters between the text and its rest. -/
def consumed (chars rest : List Char) : List Char :=
  chars.take (chars.length - rest.length)

/-- The inside of a block comment of which `chars` is the text and `rest` what follows. -/
def blockContents (chars rest : List Char) : List Char :=
  ((consumed chars rest).drop 3).dropLast.dropLast

/-- The escape that gives a character by its code. -/
def codeEscape (char : Char) : List Char :=
  ['\\', 'u', '\x7b'] ++ Nat.toDigits 16 char.toNat ++ ['\x7d']

/-- How a character is spelled inside a text literal. `next` is the character behind it: a zero that
stands before an octal digit is spelled by two digits.
-/
def spellChar (char : Char) (next : Option Char) : List Char :=
  if char = '\x22' then ['\\', '\x22']
  else if char = '\\' then ['\\', '\\']
  else if char = '\n' then ['\\', 'n']
  else if char = '\r' then ['\\', 'r']
  else if char = '\t' then ['\\', 't']
  else if char.toNat = 0 then
    if next.any fun next => '0' ≤ next && next ≤ '7' then ['\\', 'x', '0', '0'] else ['\\', '0']
  else if isGraphemeExtend char || !isPrintable char then codeEscape char
  else [char]

/-- The characters of a text as a literal spells them. -/
def spellChars : List Char → List Char
  | [] => []
  | char :: rest => spellChar char rest.head? ++ spellChars rest

/-- The literal that spells a text. -/
def spellText (chars : List Char) : String :=
  "\"" ++ String.ofList (spellChars chars) ++ "\""

/-- The attribute that a documentation comment stands for. -/
def documentation (inner : Bool) (contents : List Char) (line : Nat) : List Lexeme :=
  .mark '#' false :: (if inner then [.mark '!' false] else [])
    ++ [.opening .bracket, .word "doc" line, .mark '=' false, .literal (spellText contents),
      .closing .bracket]

/-- A documentation comment at the front: whether it belongs to what encloses it, its contents, and
what follows.
-/
def documentation? (chars : List Char) : Option (Bool × List Char × List Char) :=
  match chars with
  | '/' :: '/' :: '!' :: rest =>
      let (line, after) := takeLine rest
      some (true, line, after)
  | '/' :: '*' :: '!' :: rest =>
      (afterComment 1 ('!' :: rest)).map fun after => (true, blockContents chars after, after)
  | '/' :: '/' :: '/' :: rest =>
      if rest.head? = some '/' then none
      else
        let (line, after) := takeLine rest
        some (false, line, after)
  | '/' :: '*' :: '*' :: rest =>
      if rest.head? = some '*' then none
      else (afterComment 1 ('*' :: rest)).map fun after => (false, blockContents chars after, after)
  | _ => none

/-- The delimiter that a character is. -/
def delimiter? : Char → Option (Lexeme)
  | '(' => some (.opening .paren)
  | ')' => some (.closing .paren)
  | '[' => some (.opening .bracket)
  | ']' => some (.closing .bracket)
  | '\x7b' => some (.opening .brace)
  | '\x7d' => some (.closing .brace)
  | _ => none

/-- Whether a character is a mark. -/
def isPunctuation (char : Char) : Bool :=
  "~!@#$%^&*-=+|;:,<.>/?\x27".toList.contains char

/-- Whether a punctuation character, and not a comment, comes first. -/
def startsPunctuation : List Char → Bool
  | '/' :: '/' :: _ => false
  | '/' :: '*' :: _ => false
  | char :: _ => isPunctuation char
  | [] => false

/-- The word at the front: a name, or `r#` and a name that has a raw form. -/
def word? (chars : List Char) : Option (List Char × List Char) :=
  match chars with
  | 'r' :: '#' :: char :: rest =>
      let name := char :: rest.takeWhile isContinue
      if startsName char ∧ ¬ neverRaw.contains (String.ofList name) then
        some ('r' :: '#' :: name, rest.dropWhile isContinue)
      else none
  | 'r' :: '#' :: [] => none
  | char :: rest =>
      if startsName char then some (char :: rest.takeWhile isContinue, rest.dropWhile isContinue)
      else none
  | [] => none

/-- The openings of quoted text, which no word may start with. -/
def quoteOpenings : List (List Char) :=
  ["r\"", "r#\"", "r##", "b\"", "b\x27", "br\"", "br#", "c\"", "cr\"", "cr#"].map String.toList

/-- A quote that starts a lifetime: a word follows it, and no second quote follows the word. -/
def startsLifetime (rest : List Char) : Bool :=
  match word? rest with
  | some (_, after) => after.head? ≠ some '\x27' && (after.head? ≠ some '#' || rest.take 2 = ['r', '#'])
  | none => false

/-- The punctuation character at the front of a nonempty text. -/
def mark? (char : Char) (rest : List Char) : Option Lexeme :=
  if startsPunctuation (char :: rest) then
    if char = '\x27' then if startsLifetime rest then some (.mark char true) else none
    else some (.mark char (startsPunctuation rest))
  else none

/-- What one step reads: lexemes, the lines it runs over, and what follows. -/
structure Step where
  found : List Lexeme
  newlines : Nat
  after : List Char

/-- A step that reads one lexeme out of `chars`. -/
def Step.over (chars : List Char) (found : List Lexeme) (after : List Char) : Step :=
  ⟨found, (consumed chars after).count '\n', after⟩

/-- The spelling of a literal that could not be read. It is one literal, not a group and a comment.
-/
def unreadable : List Char :=
  "(/*ERROR*/)".toList

/-- One lexeme at the front of a nonempty text that starts with no blank and no comment. -/
def lexeme? (line : Nat) (char : Char) (rest : List Char) : Option Step :=
  let chars := char :: rest
  if unreadable.isPrefixOf chars then
    some ⟨[.literal (String.ofList unreadable)], 0, chars.drop unreadable.length⟩
  else
    match delimiter? char with
    | some lexeme => some ⟨[lexeme], 0, rest⟩
    | none =>
        match Literal.rest? chars with
        | some after =>
            some (Step.over chars [.literal (String.ofList (consumed chars after))] after)
        | none =>
            match mark? char rest with
            | some lexeme => some ⟨[lexeme], 0, rest⟩
            | none =>
                if quoteOpenings.any fun opening => opening.isPrefixOf chars then none
                else
                  (word? chars).map fun (name, after) =>
                    ⟨[.word (String.ofList name) line], 0, after⟩

/-- One step at the front of a nonempty text. -/
def step? (line : Nat) (char : Char) (rest : List Char) : Option Step :=
  let chars := char :: rest
  if isSpace char then some ⟨[], if char = '\n' then 1 else 0, rest⟩
  else if startsLineComment chars then some ⟨[], 0, (takeLine chars).2⟩
  else if startsBlockComment chars then (afterComment 1 (rest.drop 1)).map (Step.over chars [])
  else
    match documentation? chars with
    | some (inner, contents, after) =>
        if hasBareReturn contents then none
        else some (Step.over chars (documentation inner contents line) after)
    | none => lexeme? line char rest

/-- Cuts the text into lexemes. Each step takes at least one character, so the length of the text
bounds the steps.
-/
def lexemes (line : Nat) : Nat → List Char → Option (List Lexeme)
  | _, [] => some []
  | 0, _ :: _ => none
  | steps + 1, char :: rest =>
      match step? line char rest with
      | none => none
      | some step => (lexemes (line + step.newlines) steps step.after).map (step.found ++ ·)

/-- Nests lexemes. `outer` holds what was read before each open bracket, `read` what was read since
the last one, both in reverse.
-/
def nest : List (Delimiter × List Token) → List Token → List Lexeme → Option (List Token)
  | [], read, [] => some read.reverse
  | _ :: _, _, [] => none
  | outer, read, .opening delimiter :: rest => nest ((delimiter, read) :: outer) [] rest
  | [], _, .closing _ :: _ => none
  | (opened, before) :: outer, read, .closing delimiter :: rest =>
      if opened = delimiter then nest outer (.group delimiter read.reverse :: before) rest else none
  | outer, read, .word text line :: rest => nest outer (.word text line :: read) rest
  | outer, read, .mark char joint :: rest => nest outer (.mark char joint :: read) rest
  | outer, read, .literal text :: rest => nest outer (.literal text :: read) rest

/-- A byte order mark in front is no part of the text. -/
def dropByteOrderMark : List Char → List Char
  | char :: rest => if char.toNat = 0xfeff then rest else char :: rest
  | [] => []

end Lexer

/-- The tokens of a text, or nothing when it holds a character or literal that is none of the
language's, or brackets that do not match.
-/
def Token.ofChars? (chars : List Char) : Option (List Token) :=
  let chars := Lexer.dropByteOrderMark chars
  (Lexer.lexemes 1 chars.length chars).bind (Lexer.nest [] [])

/-- The tokens of a text, if it is well formed. -/
def Token.ofText? (text : String) : Option (List Token) :=
  Token.ofChars? text.toList

end Wiring.Source
