import Wiring.Source.Grammar.Types

/-! Operators between two operands, ranges and casts, by precedence. -/

namespace Wiring.Source.Grammar

/-- The operators between two operands, longer ones before those they start with. -/
def binaryOperators : List (String × Precedence) :=
  [("<<=", .assignment), (">>=", .assignment), ("&&", .conjunction), ("||", .disjunction),
    ("<<", .shift), (">>", .shift), ("==", .comparison), ("<=", .comparison), (">=", .comparison),
    ("!=", .comparison), ("+=", .assignment), ("-=", .assignment), ("*=", .assignment),
    ("/=", .assignment), ("%=", .assignment), ("^=", .assignment), ("&=", .assignment),
    ("|=", .assignment), ("+", .sum), ("-", .sum), ("*", .product), ("/", .product),
    ("%", .product), ("^", .bitDifference), ("&", .bitConjunction), ("|", .bitDisjunction),
    ("<", .comparison), (">", .comparison)]

/-- The binary operator that stands first, with its precedence. -/
def binaryOperator? (tokens : Tokens) : Option (String × Precedence) :=
  binaryOperators.find? fun (operator, _) => isMark operator tokens

/-- Whether a plain assignment comes first. -/
def isAssignment (tokens : Tokens) : Bool :=
  isMark "=" tokens && !isMark "=>" tokens

/-- How tightly what comes first binds to the operand before it. -/
def precedenceOf (tokens : Tokens) : Precedence :=
  match binaryOperator? tokens with
  | some (_, precedence) => precedence
  | none =>
      if isAssignment tokens then .assignment
      else if isMark ".." tokens then .range
      else if isWord "as" tokens then .cast
      else .jump

/-- Whether an expression may begin here. -/
def startsExpression (tokens : Tokens) : Bool :=
  (isAnyWord tokens && !isWord "as" tokens) || isAnyGroup tokens || isLiteral tokens
    || isCallMark tokens
    || (isMark "-" tokens && !isMark "-=" tokens && !isMark "->" tokens)
    || (isMark "*" tokens && !isMark "*=" tokens)
    || (isMark "|" tokens && !isMark "|=" tokens)
    || (isMark "&" tokens && !isMark "&=" tokens)
    || isMark ".." tokens
    || (isMark "<" tokens && !isMark "<=" tokens && !isMark "<<=" tokens)
    || isMark "::" tokens || isLifetime tokens || isMark "#" tokens

/-- Operators that no operand begins with. -/
def infixOperators : List String :=
  [",", ";", "?", "=>", "=", "+", "/", "%", "^", ">", "<=", "!=", "-=", "*=", "&=", "|=", "<<="]

/-- Whether a range has no end here. -/
def lacksEnd (braces : Bool) (tokens : Tokens) : Bool :=
  tokens.isEmpty || isLoneDot tokens || isWord "as" tokens || (!braces && isGroup .brace tokens)
    || infixOperators.any fun operator => isMark operator tokens

/-- The dots of a range; tells whether its end belongs to it. -/
def rangeDots : Parser Bool := do
  require (!(← sees (isMark "...")))
  if ← optionalMark "..=" then return true
  else
    mark ".."
    return false

variable (nested : Nested)

/-- Operators that bind the right operand more tightly than the operator before it does. -/
def tighterOperators (braces : Bool) (precedence : Precedence)
    : Nat → ExpressionForm → Parser Unit
  | 0, _ => return
  | fuel + 1, right => do
      let tokens ← front
      let next := precedenceOf tokens
      if precedence.rank < next.rank || (next = .assignment && precedence = .assignment) then
        let right ← nested.operators right braces next
        if (← front).length < tokens.length then tighterOperators braces precedence fuel right

/-- The operand to the right of an operator. With `enclosed`, a block that it starts with is printed
in parentheses.
-/
def rightOperand (braces enclosed : Bool) (precedence : Precedence) : Parser Unit := do
  let right ← nested.operand braces enclosed
  tighterOperators nested braces precedence (← front).length right

/-- The dots of a range, and its end, which a closed range must have. Where braces end the
expression, a block at the end of the range is printed in parentheses.
-/
def rangeTail (braces : Bool) : Parser Unit := do
  let closed ← rangeDots
  if closed || !(← sees (lacksEnd braces)) then rightOperand nested braces (!braces) .range

/-- What may not stand behind a cast. -/
def isTrailer (tokens : Tokens) : Bool :=
  isLoneDot tokens || isMark "?" tokens || isGroup .bracket tokens || isGroup .paren tokens

/-- The operators behind an operand, down to the least precedence given. Neither two comparisons nor
two ranges follow one another.
-/
def operators (left : ExpressionForm) (braces : Bool) (least : Precedence)
    : Parser ExpressionForm := do
  let tokens ← front
  if left = .range then return left
  else
    match binaryOperator? tokens with
    | some (operator, precedence) =>
        if precedence.rank < least.rank then return left
        else
          require (!(precedence = .comparison && left = .comparison))
          mark operator
          rightOperand nested braces false precedence
          let form := if precedence = .comparison then .comparison else .plain
          nested.operators form braces least
    | none =>
        if least.rank ≤ Precedence.assignment.rank && isAssignment tokens then
          mark "="
          rightOperand nested braces false .assignment
          nested.operators .plain braces least
        else if least.rank ≤ Precedence.range.rank && isMark ".." tokens then
          rangeTail nested braces
          return .range
        else if least.rank ≤ Precedence.cast.rank && isWord "as" tokens then
          keyword "as"
          discard (nested.type false)
          require (!(← sees isTrailer))
          nested.operators .plain braces least
        else return left

/-- An expression: an operand, and the operators behind it. -/
def expression (braces : Bool) : Parser ExpressionForm := do
  let left ← nested.operand braces false
  nested.operators left braces .jump

end Wiring.Source.Grammar
