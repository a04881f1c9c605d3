import Wiring.Source.Grammar.Tokens

/-! Parsers over tokens. A parser takes tokens from the front of what is left and prints what it
took, in the spacing of the grammar and not that of the text; it may also print its source
unchanged, or nothing. It fails when the front is not what it reads.
-/

namespace Wiring.Source.Grammar

/-- What is left to read, and what has been printed so far, the last token first. -/
structure Position where
  rest : Tokens
  printed : Tokens := []
  deriving Inhabited, Repr

/-- A parser fails, or moves on and answers. -/
abbrev Parser :=
  StateT Position Option

namespace Parser

/-- The result of a parser that reads all the tokens. -/
def all? (parser : Parser α) (tokens : Tokens) : Option α :=
  match parser ⟨tokens, []⟩ with
  | some (result, ⟨[], _⟩) => some result
  | _ => none

/-- The result of a parser that reads all the tokens, and what it prints. -/
def allPrinted? (parser : Parser α) (tokens : Tokens) : Option (α × Tokens) :=
  match parser ⟨tokens, []⟩ with
  | some (result, ⟨[], printed⟩) => some (result, printed.reverse)
  | _ => none

end Parser

/-- The tokens that are left. -/
def front : Parser Tokens :=
  return (← get).rest

/-- Whether the tokens that are left pass the test. -/
def sees (test : Tokens → Bool) : Parser Bool :=
  return test (← front)

/-- Goes on only if a condition holds. -/
def require (holds : Bool) : Parser Unit :=
  if holds then pure () else failure

/-- Prints tokens without reading any. -/
def print (tokens : Tokens) : Parser Unit :=
  modify fun position => { position with printed := tokens.reverse ++ position.printed }

/-- Any word, and the line it stands on. -/
def anyWord : Parser (String × Nat)
  | ⟨.word text line :: rest, printed⟩ => some ((text, line), ⟨rest, .word text line :: printed⟩)
  | _ => none

/-- An identifier that is not reserved, and the line it stands on. -/
def identifier : Parser (String × Nat) := do
  require (← sees isName)
  anyWord

/-- Reads the given word. -/
def keyword (word : String) : Parser Unit := do
  require (← sees (isWord word))
  discard anyWord

/-- Whether the word comes first; it is read then. -/
def optionalWord (word : String) : Parser Bool := do
  if ← sees (isWord word) then
    discard anyWord
    return true
  else return false

/-- Reads an operator, each of whose characters is a token of its own. -/
def mark (operator : String) : Parser Unit := fun position =>
  if isMark operator position.rest then
    some ((), {
      rest := position.rest.drop operator.length
      printed := (marksOf operator.toList).reverse ++ position.printed
    })
  else none

/-- Whether the operator comes first; it is read then. -/
def optionalMark (operator : String) : Parser Bool := do
  if ← sees (isMark operator) then
    mark operator
    return true
  else return false

/-- A lifetime: a quote and its name. -/
def lifetime : Parser Unit
  | ⟨.mark '\x27' _ :: .word text line :: rest, printed⟩ =>
      some ((), ⟨rest, .word text line :: .mark '\x27' true :: printed⟩)
  | _ => none

/-- A literal, truth values and negative numbers included. -/
def literal : Parser Unit
  | ⟨.literal text :: rest, printed⟩ => some ((), ⟨rest, .literal text :: printed⟩)
  | ⟨.mark '-' _ :: .literal text :: rest, printed⟩ =>
      if isNumber text then some ((), ⟨rest, .literal text :: .mark '-' false :: printed⟩) else none
  | ⟨.word text line :: rest, printed⟩ =>
      if text = "true" ∨ text = "false" then some ((), ⟨rest, .word text line :: printed⟩) else none
  | _ => none

/-- A group, whose contents the parser must read to their end. -/
def group (delimiter : Delimiter) (contents : Parser α) : Parser α
  | ⟨.group found inner :: rest, printed⟩ =>
      if found = delimiter then
        (contents.allPrinted? inner).map fun (result, shown) =>
          (result, ⟨rest, .group delimiter shown :: printed⟩)
      else none
  | _ => none

/-- A group of any kind, printed as it stands. -/
def anyGroup : Parser (Delimiter × Tokens)
  | ⟨.group delimiter inner :: rest, printed⟩ =>
      some ((delimiter, inner), ⟨rest, .group delimiter inner :: printed⟩)
  | _ => none

/-- All the tokens that are left, printed as they stand. -/
def everything : Parser Unit := fun position =>
  some ((), ⟨[], position.rest.reverse ++ position.printed⟩)

/-- Reads without printing, and answers what would have been printed. -/
def captured (parser : Parser α) : Parser (α × Tokens) := fun position =>
  (parser ⟨position.rest, []⟩).map fun (result, after) =>
    ((result, after.printed.reverse), ⟨after.rest, position.printed⟩)

/-- Reads without printing. -/
def silently (parser : Parser α) : Parser α := fun position =>
  (parser position).map fun (result, after) => (result, ⟨after.rest, position.printed⟩)

/-- Prints what the parser reads as it stands in the source, if its result passes the test. -/
def asWrittenIf (test : α → Bool) (parser : Parser α) : Parser α := fun position =>
  (parser position).map fun (result, after) =>
    if test result then
      let read := position.rest.take (position.rest.length - after.rest.length)
      (result, ⟨after.rest, read.reverse ++ position.printed⟩)
    else (result, after)

/-- The first of two results. What the parser reads is printed as it stands in the source, if the
second result says so.
-/
def orKept (parser : Parser (α × Bool)) : Parser α := do
  let (result, _) ← asWrittenIf Prod.snd parser
  return result

/-- Prints what a parser reads as it stands in the source. -/
def asWritten (parser : Parser α) : Parser α :=
  asWrittenIf (fun _ => true) parser

/-- The result of the parser, or nothing read when it fails. -/
def attempt (parser : Parser α) : Parser (Option α) := fun position =>
  match parser position with
  | some (result, after) => some (some result, after)
  | none => some (none, position)

/-- What would be left behind the parser; nothing is read. -/
def behind (parser : Parser Unit) : Parser (Option Tokens) := fun position =>
  some ((parser position).map fun (_, after) => after.rest, position)

/-- All the tokens that are left, as the parser reads them or else as they stand. -/
def readOrKept (parser : Parser Unit) : Parser Unit := fun position =>
  match parser position with
  | some ((), ⟨[], printed⟩) => some ((), ⟨[], printed⟩)
  | _ => everything position

/-- Items one after the other while the test holds; at most `fuel` of them. -/
def many (test : Tokens → Bool) (item : Parser α) : Nat → Parser (List α)
  | 0 => return []
  | fuel + 1 => do
      if ← sees test then
        let first ← item
        let others ← many test item fuel
        return first :: others
      else return []

/-- Items one after the other while the test holds. Each of them takes a token at least. -/
def manyWhile (test : Tokens → Bool) (item : Parser α) : Parser (List α) := do
  many test item (← front).length

/-- All the tokens that are left, as items one after the other. -/
def untilEnd (item : Parser α) : Parser (List α) :=
  manyWhile (fun tokens => !tokens.isEmpty) item

/-- Items with separators between them, up to what ends them; a separator may stand behind the last
item. Each item tells whether a separator follows; there are at most `fuel` of them.
-/
def separatedUpTo (ends : Tokens → Bool) (separator : String) (item : Parser α)
    : Nat → Parser (List (α × Bool))
  | 0 => return []
  | fuel + 1 => do
      if ← sees ends then return []
      else
        let first ← item
        if ← sees ends then return [(first, false)]
        else
          mark separator
          let others ← separatedUpTo ends separator item fuel
          return (first, true) :: others

/-- Items with separators between them, up to what ends them. -/
def separated (ends : Tokens → Bool) (separator : String) (item : Parser α)
    : Parser (List (α × Bool)) := do
  separatedUpTo ends separator item (← front).length

/-- All the tokens that are left, as items with commas between them. -/
def commaList (item : Parser α) : Parser (List α) := do
  let items ← separated List.isEmpty "," item
  return items.map Prod.fst

/-- Items with separators between them, as long as a separator follows; they may stop where items
end. There are at most `fuel` of them.
-/
def joinedUpTo (ends : Tokens → Bool) (separator : String) (item : Parser α)
    : Nat → Parser (List α)
  | 0 => return []
  | fuel + 1 => do
      if ← sees ends then return []
      else
        let first ← item
        if ← optionalMark separator then
          let others ← joinedUpTo ends separator item fuel
          return first :: others
        else return [first]

/-- Items with separators between them, as long as a separator follows. -/
def joined (ends : Tokens → Bool) (separator : String) (item : Parser α)
    : Parser (List α) := do
  joinedUpTo ends separator item (← front).length

end Wiring.Source.Grammar
