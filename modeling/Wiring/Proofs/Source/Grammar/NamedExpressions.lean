import Wiring.Proofs.Source.Grammar.NamedTypes

/-! Expressions and statements keep to identifiers: what stands behind one is read of identifiers, if
all parts inside are. Nothing that they answer is named.
-/

namespace Wiring.Source.Grammar

variable {nested : Nested}

-----------------------------------------------------------------------------------------
-- Operators
-----------------------------------------------------------------------------------------

/-- The dots of a range are a mark. -/
@[grind ←]
theorem steady_rangeDots : Steady rangeDots := by
  unfold rangeDots
  grind

/-- Operators that bind tighter go to the right operand first, by induction on their number. -/
@[grind ←]
theorem steady_tighterOperators (inside : nested.Named) (braces : Bool) (precedence : Precedence)
    (right : ExpressionForm) (fuel : Nat)
    : Steady (tighterOperators nested braces precedence fuel right) := by
  induction fuel generalizing right with
  | zero =>
      unfold tighterOperators
      grind
  | succ fuel ih =>
      unfold tighterOperators
      grind

/-- A right operand is one with all operators that bind tighter. -/
@[grind ←]
theorem steady_rightOperand (inside : nested.Named) (braces enclosed : Bool) (precedence : Precedence)
    : Steady (rightOperand nested braces enclosed precedence) := by
  unfold rightOperand
  grind

/-- A range goes on behind its dots. -/
@[grind ←]
theorem steady_rangeTail (inside : nested.Named) (braces : Bool)
    : Steady (rangeTail nested braces) := by
  unfold rangeTail
  grind

/-- The operators behind an operand are told by their marks. -/
@[grind ←]
theorem steady_operators (inside : nested.Named) (left : ExpressionForm) (braces : Bool)
    (least : Precedence)
    : Steady (operators nested left braces least) := by
  unfold operators
  grind

/-- An expression is an operand and the operators behind it. -/
@[grind ←]
theorem steady_expression (inside : nested.Named) (braces : Bool)
    : Steady (expression nested braces) := by
  unfold expression
  grind

-----------------------------------------------------------------------------------------
-- Blocks
-----------------------------------------------------------------------------------------

/-- Each further branch stands behind `else`, by induction on their number. -/
@[grind ←]
theorem steady_conditional (inside : nested.Named) (fuel : Nat)
    : Steady (conditional nested fuel) := by
  induction fuel with
  | zero =>
      unfold conditional
      grind
  | succ fuel ih =>
      unfold conditional
      grind

/-- The arms of a match are a group. -/
@[grind ←]
theorem steady_matchArms : Steady (matchArms nested) := by
  unfold matchArms
  grind

/-- A loop has its body in a group. -/
@[grind ←]
theorem steady_loopForm (inside : nested.Named)
    : Steady (loopForm nested) := by
  unfold loopForm
  grind

/-- So has a block. -/
@[grind ←]
theorem steady_blockForm (inside : nested.Named)
    : Steady (blockForm nested) := by
  unfold blockForm
  grind

-----------------------------------------------------------------------------------------
-- Operands
-----------------------------------------------------------------------------------------

/-- The parameter of a closure is a pattern, which may have a type. -/
@[grind ←]
theorem steady_closureParameter (inside : nested.Named)
    : Steady (closureParameter nested) := by
  unfold closureParameter
  grind

/-- The body of a closure stands behind its bars. -/
@[grind ←]
theorem steady_closure (inside : nested.Named) (braces : Bool)
    : Steady (closure nested braces) := by
  unfold closure
  refine steady_bind (by grind) fun _ => ?_
  extract_lets behind
  have read (answer : Unit) : Steady (behind answer) := by
    refine steady_bind (by grind) fun _ => steady_bind (by grind) fun _ => ?_
    refine steady_bind (by grind) fun _ => steady_bind (by grind) fun _ => ?_
    grind
  grind

/-- Behind a path there may be a group. -/
@[grind ←]
theorem steady_pathOperand (inside : nested.Named) (braces : Bool)
    : Steady (pathOperand nested braces) := by
  unfold pathOperand
  grind

/-- An array is a group. -/
@[grind ←]
theorem steady_arrayOperand : Steady (arrayOperand nested) := by
  unfold arrayOperand
  grind

/-- The value of a jump may be missing. -/
@[grind ←]
theorem steady_jumpValue (inside : nested.Named)
    : Steady (jumpValue nested) := by
  unfold jumpValue
  grind

/-- The value of a break stands behind its label. -/
@[grind ←]
theorem steady_breakOperand (inside : nested.Named) (braces : Bool)
    : Steady (breakOperand nested braces) := by
  unfold breakOperand
  grind

/-- The alternatives of a condition stand behind `let`. -/
@[grind ←]
theorem steady_matchCondition (inside : nested.Named) (braces : Bool)
    : Steady (matchCondition nested braces) := by
  unfold matchCondition
  grind

/-- A built-in operand is written as a built-in type. -/
@[grind ←]
theorem steady_builtinOperand : Steady builtinOperand := by
  unfold builtinOperand
  grind

/-- An operand that starts with a keyword is told by it. -/
@[grind ←]
theorem steady_keywordOperand (inside : nested.Named) (braces : Bool)
    : Steady (keywordOperand nested braces) := by
  unfold keywordOperand
  grind +splitImp

/-- The others are told by their first tokens. -/
@[grind ←]
theorem steady_atom (inside : nested.Named) (braces enclosed : Bool)
    : Steady (atom nested braces enclosed) := by
  unfold atom
  grind

/-- A named member may have arguments behind it. -/
@[grind ←]
theorem steady_namedMember (inside : nested.Named)
    : Steady (namedMember nested) := by
  unfold namedMember
  grind

/-- A member stands behind its dot. -/
@[grind ←]
theorem steady_memberTrailer (inside : nested.Named)
    : Steady (memberTrailer nested) := by
  unfold memberTrailer
  grind

/-- Trailers follow one another, by induction on their number. -/
@[grind ←]
theorem steady_trailers (inside : nested.Named) (form : ExpressionForm) (fuel : Nat)
    : Steady (trailers nested fuel form) := by
  induction fuel generalizing form with
  | zero =>
      unfold trailers
      grind
  | succ fuel ih =>
      unfold trailers
      grind

/-- An operand with its trailers. -/
@[grind ←]
theorem steady_trailed (inside : nested.Named) (form : ExpressionForm)
    : Steady (trailed nested form) := by
  unfold trailed
  grind

/-- The operand of a reference stands behind its mark. -/
@[grind ←]
theorem steady_referenceOperand (inside : nested.Named) (braces : Bool)
    : Steady (referenceOperand nested braces) := by
  unfold referenceOperand
  grind

/-- So does that of a sign; any other operand is an atom with its trailers. -/
@[grind ←]
theorem steady_operand (inside : nested.Named) (braces enclosed : Bool)
    : Steady (operand nested braces enclosed) := by
  unfold operand
  grind

/-- The first operand of a statement may end with its block. -/
@[grind ←]
theorem steady_earlyOperand (inside : nested.Named)
    : Steady (earlyOperand nested) := by
  unfold earlyOperand
  grind

/-- Operators may stand behind it. -/
@[grind ←]
theorem steady_behindEarlyOperand (inside : nested.Named) (left : ExpressionForm)
    : Steady (behindEarlyOperand nested left) := by
  unfold behindEarlyOperand
  grind

/-- So an expression at the start of a statement is steady. -/
@[grind ←]
theorem steady_earlyExpression (inside : nested.Named) (attributes : Tokens)
    : Steady (earlyExpression nested attributes) := by
  unfold earlyExpression
  grind

-----------------------------------------------------------------------------------------
-- Statements
-----------------------------------------------------------------------------------------

/-- A variable has its pattern behind `let`. -/
@[grind ←]
theorem steady_variableStatement (inside : nested.Named)
    : Steady (variableStatement nested) := by
  unfold variableStatement
  refine steady_bind (by grind) fun _ => steady_bind (by grind) fun _ => ?_
  refine steady_bind (by grind) fun _ => ?_
  extract_lets last behind
  have ended (answer : Unit) : Steady (last answer) := steady_mark _
  have read (answer : Unit) : Steady (behind answer) := by
    refine steady_bind (steady_optionalMark _) fun _ => ?_
    split <;> grind
  grind

/-- A macro's call is a group behind its path. -/
@[grind ←]
theorem steady_callStatement : Steady callStatement := by
  unfold callStatement
  grind

/-- A statement is told by what stands behind its attributes. -/
@[grind ←]
theorem steady_statement (inside : nested.Named)
    : Steady (statement nested) := by
  unfold statement
  refine steady_bind (steady_behind _) fun tokens? => ?_
  cases tokens? with
  | none => exact steady_failure
  | some tokens =>
      refine steady_bind (steady_behind _) fun called? => ?_
      split <;> grind

/-- Statements follow one another, by induction on their number. -/
@[grind ←]
theorem steady_statementsUpTo (inside : nested.Named) (fuel : Nat)
    : Steady (statementsUpTo nested fuel) := by
  induction fuel with
  | zero =>
      unfold statementsUpTo
      grind
  | succ fuel ih =>
      unfold statementsUpTo
      grind

/-- The number of tokens bounds them. -/
@[grind ←]
theorem steady_statements (inside : nested.Named)
    : Steady (statements nested) := by
  unfold statements
  grind

end Wiring.Source.Grammar
