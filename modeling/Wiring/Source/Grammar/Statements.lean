import Wiring.Source.Grammar.Expressions

/-! Statements of a block. -/

namespace Wiring.Source.Grammar

/-- Whether a variable of static life begins here, and not a closure. -/
def startsStatic (tokens : Tokens) : Bool :=
  isWord "static" tokens && (isWord "mut" tokens.tail || isName tokens.tail)

/-- Whether a constant or a function in constants begins here, and not an expression. -/
def startsConstant (tokens : Tokens) : Bool :=
  isWord "const" tokens
    && !(isGroup .brace tokens.tail || isOneOf ["static", "move"] tokens.tail
      || (isWord "async" tokens.tail && !isOneOf ["unsafe", "extern", "fn"] tokens.tail.tail)
      || isMark "|" tokens.tail)

/-- Whether an item begins here, attributes and macro calls aside. -/
def startsItem (tokens : Tokens) : Bool :=
  isOneOf ["pub", "extern", "use", "fn", "mod", "type", "struct", "enum", "trait", "impl", "macro"]
      tokens
    || (isWord "crate" tokens && !isMark "::" tokens.tail)
    || startsStatic tokens || startsConstant tokens
    || (isWord "unsafe" tokens && !isGroup .brace tokens.tail)
    || (isWord "async" tokens && isOneOf ["unsafe", "extern", "fn"] tokens.tail)
    || (isWord "union" tokens && isName tokens.tail)
    || (isWord "auto" tokens && isWord "trait" tokens.tail)
    || (isWord "default" tokens && isOneOf ["unsafe", "impl"] tokens.tail)

/-- Whether a macro call with these tokens behind its mark defines what it names. -/
def namesDefinition (tokens : Tokens) : Bool :=
  isName tokens || isWord "try" tokens

/-- Whether a macro call with these tokens behind its mark is a statement by itself. -/
def endsWithBraces (tokens : Tokens) : Bool :=
  isGroup .brace tokens && !isLoneDot tokens.tail && !isMark "?" tokens.tail

/-- Whether the printed expression ends with a group in braces. -/
def endsInBraces (printed : Tokens) : Bool :=
  match printed.getLast? with
  | some (.group .brace _) => true
  | _ => false

/-- Whether an expression needs a semicolon to be followed by another statement. -/
def needsSemicolon (form : ExpressionForm) : Bool :=
  form ≠ .block && form ≠ .bracedCall

variable (nested : Nested)

/-- A variable, its type and value, and a block that is run where the value does not match. -/
def variableStatement : Parser Unit := do
  keyword "let"
  discard nested.pattern
  if ← optionalMark ":" then
    discard (nested.type true)
  if ← optionalMark "=" then
    let (_, printed) ← captured (nested.expression true)
    print printed
    if !endsInBraces printed && (← sees (isWord "else")) then
      keyword "else"
      block nested
  mark ";"

/-- A macro call with braces, and a semicolon behind it or not. -/
def callStatement : Parser Unit := do
  discard plainPath
  mark "!"
  discard anyGroup
  discard (optionalMark ";")

/-- What follows the attributes at the front. -/
def behindAttributes? : Parser (Option Tokens) :=
  behind (discard (outerAttributes nested))

/-- What follows the attributes, the path and the mark of a macro call, if one is at the front. -/
def behindCallMark? : Parser (Option Tokens) :=
  behind do
    discard (outerAttributes nested)
    discard plainPath
    mark "!"

/-- One statement; tells whether it must be the last. -/
def statement : Parser Bool := do
  let some tokens ← behindAttributes? nested | failure
  let called? ← behindCallMark? nested
  if startsItem tokens || called?.any namesDefinition then
    discard nested.item
    return false
  else
    let (_, attributes) ← captured (outerAttributes nested)
    if called?.any endsWithBraces then
      print attributes
      callStatement
      return false
    else if isWord "let" tokens then
      print attributes
      variableStatement nested
      return false
    else
      let form ← nested.earlyExpression attributes
      let ended ← optionalMark ";"
      return !ended && needsSemicolon form

/-- Statements up to the end; there are at most `fuel` of them. -/
def statementsUpTo : Nat → Parser Unit
  | 0 => return
  | fuel + 1 => do
      let tokens ← front
      if tokens.isEmpty then return
      else if isMark ";" tokens then
        mark ";"
        statementsUpTo fuel
      else
        let isLast ← statement nested
        require (!isLast || (← front).isEmpty)
        statementsUpTo fuel

/-- Statements up to the end. -/
def statements : Parser Unit := do
  statementsUpTo nested (← front).length

end Wiring.Source.Grammar
