import Wiring.Source.Grammar.Operators
import Wiring.Source.Grammar.Patterns

/-! Operands: what stands between operators, with the signs before it and the calls, indices and
fields behind it.
-/

namespace Wiring.Source.Grammar

/-- Whether an operand begins here that ends with a block, so that it is a statement by itself. -/
def startsBlockForm (tokens : Tokens) : Bool :=
  isOneOf ["if", "while", "loop", "match", "unsafe"] tokens
    || (isWord "for" tokens && !startsParameters tokens.tail)
    || (isOneOf ["try", "const"] tokens && isGroup .brace tokens.tail)
    || isGroup .brace tokens || isLifetime tokens

/-- Whether a block that runs later begins here, with or without taking what it uses. -/
def startsLaterBlock (tokens : Tokens) : Bool :=
  isWord "async" tokens
    && (isGroup .brace tokens.tail || (isWord "move" tokens.tail && isGroup .brace tokens.tail.tail))

/-- Whether a closure starts here. -/
def startsClosure (tokens : Tokens) : Bool :=
  isMark "|" tokens || isOneOf ["move", "static", "async"] tokens
    || (isWord "for" tokens && startsParameters tokens.tail)
    || (isWord "const" tokens && !isGroup .brace tokens.tail)

/-- Whether an operand begins here that is a path or starts with one. -/
def startsPathOperand (tokens : Tokens) : Bool :=
  startsPath tokens
    || (isWord "try" tokens && (isMark "!" tokens.tail || isMark "::" tokens.tail))

variable (nested : Nested)

/-- Expressions with commas between them. -/
def expressionList : Parser Unit :=
  discard (commaList (nested.expression true))

/-- A condition and its branches; there are at most `fuel` of them. -/
def conditional : Nat → Parser Unit
  | 0 => failure
  | fuel + 1 => do
      keyword "if"
      discard (nested.expression false)
      block nested
      if ← optionalWord "else" then
        if ← sees (isWord "if") then conditional fuel else block nested

/-- One case of a match. Behind a value that ends with a block, the comma may be left out. -/
def matchArm : Parser Unit := do
  discard (outerAttributes nested)
  discard (alternatives nested)
  if ← optionalWord "if" then
    discard (nested.expression true)
  mark "=>"
  let form ← nested.earlyExpression []
  if form ≠ .block && !(← front).isEmpty then mark "," else discard (optionalMark ",")

/-- The arms of a `match`. -/
def matchArms : Parser Unit :=
  group .brace do
    discard (innerAttributes nested)
    discard (untilEnd (matchArm nested))

/-- A loop, from its keyword on. -/
def loopForm : Parser Unit := do
  let tokens ← front
  if isWord "while" tokens then
    keyword "while"
    discard (nested.expression false)
  else if isWord "for" tokens then
    keyword "for"
    discard (alternatives nested)
    keyword "in"
    discard (nested.expression false)
  else keyword "loop"
  attributedBlock nested

/-- An operand that ends with a block. -/
def blockForm : Parser Unit := do
  let tokens ← front
  if isWord "if" tokens then conditional nested tokens.length
  else if isWord "match" tokens then
    keyword "match"
    discard (nested.expression false)
    matchArms nested
  else if isOneOf ["unsafe", "const"] tokens then
    discard anyWord
    attributedBlock nested
  else if isWord "try" tokens then
    keyword "try"
    block nested
  else
    if isLifetime tokens then
      lifetime
      mark ":"
    if ← sees (isGroup .brace) then attributedBlock nested else loopForm nested

/-- One parameter of a closure. -/
def closureParameter : Parser Unit := do
  let (_, attributes) ← captured (outerAttributes nested)
  let (form, printed) ← captured nested.pattern
  if ← sees (isMark ":") then
    print (attributes ++ printed)
    mark ":"
    discard (nested.type true)
  else print (if form = .kept then printed else attributes ++ printed)

/-- A closure. One that names its result has a block for a body. -/
def closure (braces : Bool) : Parser Unit := do
  if ← sees (isWord "for") then boundParameters nested
  discard (optionalWord "const")
  discard (optionalWord "static")
  discard (optionalWord "async")
  discard (optionalWord "move")
  mark "|"
  discard (separated (isMark "|") "," (closureParameter nested))
  mark "|"
  if ← optionalMark "->" then
    discard (nested.type true)
    block nested
  else discard (nested.expression braces)

/-- A field of a structure, behind its attributes. -/
def fieldValue : Parser Unit := do
  discard (outerAttributes nested)
  let named ← member
  if !named || (← sees (isMark ":")) then
    mark ":"
    discard (nested.expression true)

/-- The fields of a structure; behind two dots, the structure that the others are taken from. -/
def fieldValues : Parser Unit :=
  discard <| commaList do
    if ← optionalMark ".." then
      unless (← front).isEmpty do
        discard (nested.expression true)
      require (← front).isEmpty
    else fieldValue nested

/-- A path, the call of a macro by it, or a structure of its type. -/
def pathOperand (braces : Bool) : Parser ExpressionForm := do
  let (qualified, read) ← anyPath nested .expression
  if !qualified && read.isPlain && (← sees isCallMark) then
    mark "!"
    let (delimiter, _) ← anyGroup
    return if delimiter = .brace then .bracedCall else .plain
  else if braces && (← sees (isGroup .brace)) then
    group .brace (fieldValues nested)
    return .plain
  else return .plain

/-- An array: its elements, or one element and how often it stands there. -/
def arrayOperand : Parser Unit :=
  group .bracket do
    unless (← front).isEmpty do
      discard (nested.expression true)
      if ← optionalMark ";" then discard (nested.expression true)
      else
        unless (← front).isEmpty do
          mark ","
          expressionList nested

/-- The value that a jump carries, if an expression begins here. It may hold structures wherever the
jump stands.
-/
def jumpValue : Parser Unit := do
  if ← sees startsExpression then discard (nested.expression true)

/-- The end of a loop or block, the block's label and value included. A value that is a labelled
loop stands in parentheses.
-/
def breakOperand (braces : Bool) : Parser Unit := do
  keyword "break"
  if ← sees isLifetime then
    lifetime
    require (!(← sees (isMark ":")))
  if braces || !(← sees (isGroup .brace)) then jumpValue nested

/-- A condition that matches a pattern. -/
def matchCondition (braces : Bool) : Parser Unit := do
  keyword "let"
  discard (alternatives nested)
  mark "="
  let left ← nested.operand braces false
  discard (nested.operators left braces .comparison)

/-- An operand that the compiler provides, printed as it stands. -/
def builtinOperand : Parser Unit :=
  asWritten do
    keyword "builtin"
    mark "#"
    discard identifier
    group .paren everything

/-- An operand that starts with a keyword of its own and does not end with a block. -/
def keywordOperand (braces : Bool) : Parser ExpressionForm := do
  let tokens ← front
  if isWord "break" tokens then
    breakOperand nested braces
    return .plain
  else if isWord "continue" tokens then
    keyword "continue"
    if ← sees isLifetime then lifetime
    return .plain
  else if isWord "return" tokens then
    keyword "return"
    jumpValue nested
    return .plain
  else if isWord "yield" tokens then
    keyword "yield"
    jumpValue nested
    return .plain
  else if isWord "become" tokens then
    asWritten do
      keyword "become"
      discard (nested.expression true)
    return .kept
  else if isWord "let" tokens then
    matchCondition nested braces
    return .plain
  else
    keyword "_"
    return .plain

/-- Whether a block without attributes comes first. -/
def startsPlainBlock : Tokens → Bool
  | .group .brace inner :: _ => !(isMark "#" inner && isMark "!" inner.tail)
  | _ => false

/-- An operand without anything before or behind it. With `enclosed`, a block is printed in
parentheses.
-/
def atom (braces enclosed : Bool) : Parser ExpressionForm := do
  let tokens ← front
  if isLiteral tokens then
    literal
    return .plain
  else if startsBlockForm tokens then
    let ((), printed) ← captured (blockForm nested)
    print (if enclosed && startsPlainBlock tokens then [.group .paren printed] else printed)
    return .block
  else if startsLaterBlock tokens then
    keyword "async"
    discard (optionalWord "move")
    block nested
    return .plain
  else if startsClosure tokens then
    closure nested braces
    return .plain
  else if isWord "builtin" tokens && isMark "#" tokens.tail then
    builtinOperand
    return .kept
  else if startsPathOperand tokens then pathOperand nested braces
  else if isGroup .paren tokens then
    group .paren (expressionList nested)
    return .plain
  else if isGroup .bracket tokens then
    arrayOperand nested
    return .plain
  else if isMark ".." tokens then
    rangeTail nested braces
    return .range
  else keywordOperand nested braces

/-- What is named behind a dot: a field, a place, or a method with its type arguments. -/
def namedMember : Parser Unit := do
  if ← sees (isWord "await") then keyword "await"
  else
    let named ← member
    if named && (← sees (isMark "::")) then
      discard (genericArguments nested)
      require (← sees (isGroup .paren))

/-- A dot and what is named behind it. A number with dots names several places. -/
def memberTrailer : Parser Unit := do
  mark "."
  if ← sees isDotted then
    if ← dottedPlaces then namedMember nested
  else namedMember nested

/-- Calls, indices and fields behind an operand; there are at most `fuel` of them. -/
def trailers : Nat → ExpressionForm → Parser ExpressionForm
  | 0, form => return form
  | fuel + 1, form => do
      let tokens ← front
      if isGroup .paren tokens then
        group .paren (expressionList nested)
        trailers fuel .plain
      else if isGroup .bracket tokens then
        discard (group .bracket (nested.expression true))
        trailers fuel .plain
      else if form = .range then return form
      else if isLoneDot tokens then
        memberTrailer nested
        trailers fuel .plain
      else if isMark "?" tokens then
        mark "?"
        trailers fuel .plain
      else return form

/-- An operand and what stands behind it. -/
def trailed (form : ExpressionForm) : Parser ExpressionForm := do
  trailers nested (← front).length form

/-- A reference to an operand, or its raw address. -/
def referenceOperand (braces : Bool) : Parser Unit := do
  mark "&"
  let tokens ← front
  if isWord "raw" tokens && isOneOf ["const", "mut"] tokens.tail then
    keyword "raw"
    discard anyWord
  else discard (optionalWord "mut")
  discard (nested.operand braces false)

/-- An operand with what stands before and behind it. A range without a start has no attributes.
With `enclosed`, a block that comes first is printed in parentheses.
-/
def operand (braces enclosed : Bool) : Parser ExpressionForm :=
  asWrittenIf (· = .kept) do
    let attributes ← outerAttributes nested
    let tokens ← front
    if isMark "&" tokens then
      referenceOperand nested braces
      return .plain
    else if isMark "*" tokens || isMark "!" tokens || isMark "-" tokens then
      mark (if isMark "*" tokens then "*" else if isMark "!" tokens then "!" else "-")
      discard (nested.operand braces false)
      return .plain
    else
      let form ← trailed nested (← atom nested braces (enclosed && attributes.isEmpty))
      require (form ≠ .range || attributes.isEmpty)
      return form

/-- An operand with which a statement or a case begins. One that ends with a block ends there. -/
def earlyOperand : Parser ExpressionForm := do
  if ← sees startsBlockForm then
    blockForm nested
    return .block
  else nested.operand true false

/-- What stands behind the operand with which a statement or a case begins. -/
def behindEarlyOperand (left : ExpressionForm) : Parser ExpressionForm := do
  if left ≠ .block then nested.operators left true .jump
  else if (← sees isLoneDot) || (← sees (isMark "?")) then
    let left ← trailed nested left
    nested.operators left true .jump
  else return left

/-- The printed form of an expression behind its attributes. A range stands in parentheses then, and
before what is printed as it stands there are none.
-/
def attributed (attributes : Tokens) (form : ExpressionForm) (printed : Tokens) : Tokens :=
  if attributes.isEmpty || form = .kept then printed
  else if form = .range then attributes ++ [.group .paren printed]
  else attributes ++ printed

/-- An expression that ends as early as a statement may. The attributes given stand before it; they
are those of its first operand, unless it is a range.
-/
def earlyExpression (attributes : Tokens) : Parser ExpressionForm := do
  let (_, own) ← captured (outerAttributes nested)
  let (left, first) ← captured (earlyOperand nested)
  let (form, others) ← captured (behindEarlyOperand nested left)
  let printed := attributed own left first ++ others
  print (attributed attributes (if form = .range then .range else left) printed)
  return form

end Wiring.Source.Grammar
