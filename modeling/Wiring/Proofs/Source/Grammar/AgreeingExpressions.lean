import Wiring.Proofs.Source.Grammar.AgreeingTypes
import Wiring.Source.Grammar.Statements

/-! Expressions and statements that are made alike of other parts. An operand and the operators behind it
read a token before any part inside. An expression starts with an operand, and a statement with an item or
an expression; these have to agree where the whole does.
-/

namespace Wiring.Source.Grammar

variable {limit : Nat} {first second : Nested}

-----------------------------------------------------------------------------------------
-- Operators
-----------------------------------------------------------------------------------------

/-- The dots of a range are a mark. -/
theorem eats_rangeDots : Eats rangeDots := by
  refine .later (leaves_sees _) fun _ => .later (leaves_require _) fun _ => .optionalMark rfl ?_ ?_
  · exact leaves_of_agree fun _ => .pure true
  · exact (eats_mark rfl).followed fun _ => leaves_of_agree fun _ => .pure false

/-- Operators that bind tighter go to the right operand first, by induction on their number. -/
theorem agree_tighterOperators (inside : first.Agree second limit) (braces : Bool)
    (precedence : Precedence) (fuel : Nat) (right : ExpressionForm)
    : Agree limit (tighterOperators first braces precedence fuel right)
        (tighterOperators second braces precedence fuel right) := by
  induction fuel generalizing right with
  | zero => exact .pure _
  | succ fuel ih =>
      refine .after leaves_front fun _ => .ite (fun _ => ?_) fun _ => .pure _
      refine (inside.operators _ _ _).bind fun right => .after leaves_front fun _ => ?_
      exact .ite (fun _ => ih right) fun _ => .pure _

/-- A right operand is one with all operators that bind tighter. -/
theorem agree_rightOperand (inside : first.Agree second limit) (braces enclosed : Bool)
    (precedence : Precedence)
    : Agree limit (rightOperand first braces enclosed precedence)
        (rightOperand second braces enclosed precedence) :=
  (inside.operand braces enclosed).bind fun _ => .after leaves_front fun _ =>
    agree_tighterOperators inside braces precedence _ _

/-- A range goes on behind its dots. -/
theorem agree_rangeTail (inside : first.Agree second limit) (braces : Bool)
    : Agree (limit + 1) (rangeTail first braces) (rangeTail second braces) := by
  refine .eat eats_rangeDots fun _ => .after (leaves_sees _) fun _ => .ite (fun _ => ?_) fun _ => .pure _
  exact agree_rightOperand inside braces _ .range

/-- No operator is written without a character. -/
theorem nonempty_of_binaryOperator? {tokens : Tokens} {operator : String} {precedence : Precedence}
    (found : binaryOperator? tokens = some (operator, precedence))
    : operator.toList.isEmpty = false := by
  have all : ∀ entry ∈ binaryOperators, entry.1.toList.isEmpty = false := by decide
  exact all _ (List.mem_of_find?_eq_some found)

/-- The operators behind an operand agree where the parts inside agree in front of lighter tokens. -/
theorem agree_operators (inside : first.Agree second limit) (left : ExpressionForm) (braces : Bool)
    (least : Precedence)
    : Agree (limit + 1) (operators first left braces least) (operators second left braces least) := by
  refine .after leaves_front fun tokens => .ite (fun _ => .pure _) fun _ => ?_
  split
  · rename_i operator precedence found
    refine .ite (fun _ => .pure _) fun _ => .after (leaves_require _) fun _ => ?_
    refine .eat (eats_mark (nonempty_of_binaryOperator? found)) fun _ => ?_
    exact (agree_rightOperand inside braces false precedence).bind fun _ => inside.operators _ braces least
  · refine .ite (fun _ => .eat (eats_mark rfl) fun _ => ?_) fun _ => .ite (fun _ => ?_) fun _ => ?_
    · exact (agree_rightOperand inside braces false _).bind fun _ => inside.operators _ braces least
    · exact (agree_rangeTail inside braces).bind fun _ => .pure _
    · refine .ite (fun _ => .eat (eats_keyword _) fun _ => ?_) fun _ => .pure _
      refine (inside.type false).discard.bind fun _ => .after (leaves_sees _) fun _ => ?_
      exact .after (leaves_require _) fun _ => inside.operators _ braces least

/-- Whether the parts agree that an expression starts with. -/
structure Nested.OperandsAgree (first second : Nested) (limit : Nat) : Prop where
  operand : ∀ braces enclosed,
    Grammar.Agree limit (first.operand braces enclosed) (second.operand braces enclosed)
  operators : ∀ left braces least,
    Grammar.Agree limit (first.operators left braces least) (second.operators left braces least)

/-- An expression agrees where operands and operators do. -/
theorem agree_expression (operands : first.OperandsAgree second limit) (braces : Bool)
    : Agree limit (expression first braces) (expression second braces) :=
  (operands.operand braces false).bind fun left => operands.operators left braces .jump

-----------------------------------------------------------------------------------------
-- Blocks
-----------------------------------------------------------------------------------------

/-- A list of expressions. -/
theorem agree_expressionList (inside : first.Agree second limit)
    : Agree limit (expressionList first) (expressionList second) :=
  (inside.expression true).commaList.discard

/-- The condition stands behind `if`, and each further branch behind `else`, by induction on their
number.
-/
theorem agree_conditional (inside : first.Agree second limit) (fuel : Nat)
    : Agree (limit + 1) (conditional first fuel) (conditional second fuel) := by
  induction fuel with
  | zero => exact .failure
  | succ fuel ih =>
      refine .eat (eats_keyword _) fun _ => (inside.expression false).discard.bind fun _ => ?_
      refine (agree_block inside).lower.bind fun _ => .after (leaves_optionalWord _) fun _ => ?_
      refine .ite (fun _ => .after (leaves_sees _) fun _ => ?_) fun _ => .pure _
      exact .ite (fun _ => ih.lower) fun _ => (agree_block inside).lower

/-- An arm has its alternatives, a guard and a value. -/
theorem agree_matchArm (inside : first.Agree second limit)
    : Agree limit (matchArm first) (matchArm second) := by
  refine (agree_outerAttributes inside).lower.discard.bind fun _ => ?_
  refine (agree_alternatives inside).discard.bind fun _ => .after (leaves_optionalWord _) fun _ => ?_
  refine .perhaps (inside.expression true).discard fun _ => .after (leaves_mark _) fun _ => ?_
  refine (inside.earlyExpression []).bind fun _ => .after leaves_front fun _ => ?_
  exact .ite (fun _ => (leaves_mark _).agree) fun _ => (leaves_optionalMark _).agree.discard

/-- The arms of a match are inside its braces. -/
theorem agree_matchArms (inside : first.Agree second limit)
    : Agree (limit + 1) (matchArms first) (matchArms second) :=
  .group _ ((agree_innerAttributes inside).lower.discard.bind fun _ =>
    (agree_matchArm inside).untilEnd.discard)

/-- A loop is told by its keyword, behind a label. -/
theorem agree_loopForm (inside : first.Agree second limit)
    : Agree (limit + 1) (loopForm first) (loopForm second) := by
  have body := agree_attributedBlock inside
  refine .after leaves_front fun _ => .ite (fun _ => ?_) fun _ => .ite (fun _ => ?_) fun _ => ?_
  · refine .eat (eats_keyword _) fun _ => ?_
    exact (inside.expression false).discard.bind fun _ => body.lower
  · refine .eat (eats_keyword _) fun _ => (agree_alternatives inside).discard.bind fun _ => ?_
    refine .after (eats_keyword _).leaves fun _ => ?_
    exact (inside.expression false).discard.bind fun _ => body.lower
  · exact .after (eats_keyword _).leaves fun _ => body

/-- A block is told by its keyword. -/
theorem agree_blockForm (inside : first.Agree second limit)
    : Agree (limit + 1) (blockForm first) (blockForm second) := by
  have body := agree_attributedBlock inside
  refine .after leaves_front fun tokens => .ite (fun _ => agree_conditional inside _) fun _ => ?_
  refine .ite (fun _ => .eat (eats_keyword _) fun _ => ?_) fun _ => .ite (fun _ => ?_) fun _ => ?_
  · exact (inside.expression false).discard.bind fun _ => (agree_matchArms inside).lower
  · exact .skip eats_anyWord.leaves fun _ => body
  · refine .ite (fun _ => .after (eats_keyword _).leaves fun _ => agree_block inside) fun _ => ?_
    refine .perhapsBoth eats_lifetime.agree (leaves_mark _).agree fun _ => .after (leaves_sees _) fun _ => ?_
    exact .ite (fun _ => body) fun _ => agree_loopForm inside

-----------------------------------------------------------------------------------------
-- Operands
-----------------------------------------------------------------------------------------

/-- The parameter of a closure is a pattern, which may have a type. -/
theorem agree_closureParameter (inside : first.Agree second limit)
    : Agree limit (closureParameter first) (closureParameter second) := by
  refine (agree_outerAttributes inside).lower.captured.bind fun _ => inside.pattern.captured.bind fun _ => ?_
  refine .after (leaves_sees _) fun _ => .ite (fun _ => ?_) fun _ => (leaves_print _).agree
  exact .after (leaves_print _) fun _ => .after (leaves_mark _) fun _ => (inside.type true).discard

/-- The body of a closure stands behind its bars. -/
theorem agree_closure (inside : first.Agree second limit) (braces : Bool)
    : Agree (limit + 1) (closure first braces) (closure second braces) := by
  refine .after (leaves_sees _) fun _ => .perhaps (agree_boundParameters inside) fun _ => ?_
  refine .skip (leaves_optionalWord _) fun _ => .skip (leaves_optionalWord _) fun _ => ?_
  refine .skip (leaves_optionalWord _) fun _ => .skip (leaves_optionalWord _) fun _ => ?_
  refine .eat (eats_mark rfl) fun _ => ?_
  refine ((agree_closureParameter inside).separated _ _).discard.bind fun _ => ?_
  refine .after (leaves_mark _) fun _ => .after (leaves_optionalMark _) fun _ => .ite (fun _ => ?_) fun _ => ?_
  · exact (inside.type true).discard.bind fun _ => (agree_block inside).lower
  · exact (inside.expression braces).discard

/-- The value of a field may stand behind its name. -/
theorem agree_fieldValue (inside : first.Agree second limit)
    : Agree limit (fieldValue first) (fieldValue second) := by
  refine (agree_outerAttributes inside).lower.discard.bind fun _ => .after leaves_member fun _ => ?_
  refine .after (leaves_sees _) fun _ => .ite (fun _ => ?_) fun _ => .pure _
  exact .after (leaves_mark _) fun _ => (inside.expression true).discard

/-- Values of fields, up to the rest. -/
theorem agree_fieldValues (inside : first.Agree second limit)
    : Agree limit (fieldValues first) (fieldValues second) := by
  refine .discard (.commaList (.after (leaves_optionalMark _) fun _ => ?_))
  refine .ite (fun _ => .after leaves_front fun _ => ?_) fun _ => agree_fieldValue inside
  have ended : Agree limit (do require (← front).isEmpty) (do require (← front).isEmpty) :=
    .after leaves_front fun _ => (leaves_require _).agree
  exact .ite (fun _ => ended) fun _ => (inside.expression true).discard.bind fun _ => ended

/-- An operand that starts with a path is told by what stands behind it. -/
theorem agree_pathOperand (inside : first.Agree second limit) (braces : Bool)
    : Agree (limit + 1) (pathOperand first braces) (pathOperand second braces) := by
  refine (agree_anyPath inside .expression).bind fun _ => .after (leaves_sees _) fun _ => ?_
  refine .ite (fun _ => .after (leaves_mark _) fun _ => ?_) fun _ => .after (leaves_sees _) fun _ => ?_
  · exact .after eats_anyGroup.leaves fun _ => .pure _
  · refine .ite (fun _ => .bind (.group _ ?_) fun _ => .pure _) fun _ => .pure _
    exact agree_fieldValues inside

/-- The elements of an array are inside its brackets. -/
theorem agree_arrayOperand (inside : first.Agree second limit)
    : Agree (limit + 1) (arrayOperand first) (arrayOperand second) := by
  refine .group _ (.after leaves_front fun _ => .ite (fun _ => .pure _) fun _ => ?_)
  refine (inside.expression true).discard.bind fun _ => .after (leaves_optionalMark _) fun _ => ?_
  refine .ite (fun _ => (inside.expression true).discard) fun _ => .after leaves_front fun _ => ?_
  exact .ite (fun _ => .pure _) fun _ => .after (leaves_mark _) fun _ => agree_expressionList inside

/-- The value of a jump may be missing. -/
theorem agree_jumpValue (inside : first.Agree second limit)
    : Agree limit (jumpValue first) (jumpValue second) :=
  .after (leaves_sees _) fun _ => .ite (fun _ => (inside.expression true).discard) fun _ => .pure _

/-- The value of a break stands behind its label. -/
theorem agree_breakOperand (inside : first.Agree second limit) (braces : Bool)
    : Agree (limit + 1) (breakOperand first braces) (breakOperand second braces) := by
  have value
      : Agree limit
          (do if braces || !(← sees (isGroup .brace)) then jumpValue first)
          (do if braces || !(← sees (isGroup .brace)) then jumpValue second) :=
    .after (leaves_sees _) fun _ => .ite (fun _ => agree_jumpValue inside) fun _ => .pure _
  refine .eat (eats_keyword _) fun _ => .after (leaves_sees _) fun _ => .ite (fun _ => ?_) fun _ => value
  refine .after eats_lifetime.leaves fun _ => .after (leaves_sees _) fun _ => ?_
  exact .after (leaves_require _) fun _ => value

/-- The alternatives of a condition stand behind `let`. -/
theorem agree_matchCondition (inside : first.Agree second limit) (braces : Bool)
    : Agree (limit + 1) (matchCondition first braces) (matchCondition second braces) := by
  refine .eat (eats_keyword _) fun _ => (agree_alternatives inside).discard.bind fun _ => ?_
  refine .after (leaves_mark _) fun _ => (inside.operand braces false).bind fun left => ?_
  exact (inside.operators left braces .comparison).discard

/-- A built-in operand is written as a built-in type. -/
theorem leaves_builtinOperand : Leaves builtinOperand :=
  leaves_builtinType

/-- An operand that starts with a keyword is told by it. -/
theorem agree_keywordOperand (inside : first.Agree second limit) (braces : Bool)
    : Agree (limit + 1) (keywordOperand first braces) (keywordOperand second braces) := by
  have jump (word : String)
      : Agree (limit + 1)
          (do keyword word; jumpValue first; return ExpressionForm.plain)
          (do keyword word; jumpValue second; return ExpressionForm.plain) :=
    .eat (eats_keyword word) fun _ => (agree_jumpValue inside).bind fun _ => .pure _
  refine .after leaves_front fun _ => .ite (fun _ => ?_) fun _ => .ite (fun _ => ?_) fun _ => ?_
  · exact (agree_breakOperand inside braces).bind fun _ => .pure _
  · refine .after (eats_keyword _).leaves fun _ => .after (leaves_sees _) fun _ => ?_
    exact .perhaps eats_lifetime.agree fun _ => .pure _
  · refine .ite (fun _ => jump "return") fun _ => .ite (fun _ => jump "yield") fun _ => ?_
    refine .ite (fun _ => .bind (.asWritten (.eat (eats_keyword _) fun _ => ?_)) fun _ => .pure _) fun _ => ?_
    · exact (inside.expression true).discard
    · refine .ite (fun _ => (agree_matchCondition inside braces).bind fun _ => .pure _) fun _ => ?_
      exact .after (eats_keyword _).leaves fun _ => .pure _

/-- The others are told by their first tokens. -/
theorem agree_atom (inside : first.Agree second limit) (braces enclosed : Bool)
    : Agree (limit + 1) (atom first braces enclosed) (atom second braces enclosed) := by
  refine .after leaves_front fun _ => .ite (fun _ => .after eats_literal.leaves fun _ => .pure _) fun _ => ?_
  refine .ite (fun _ => ?_) fun _ => .ite (fun _ => ?_) fun _ => .ite (fun _ => ?_) fun _ => ?_
  · exact (agree_blockForm inside).captured.bind fun _ => .after (leaves_print _) fun _ => .pure _
  · refine .after (eats_keyword _).leaves fun _ => .skip (leaves_optionalWord _) fun _ => ?_
    exact (agree_block inside).bind fun _ => .pure _
  · exact (agree_closure inside braces).bind fun _ => .pure _
  · refine .ite (fun _ => .after leaves_builtinOperand fun _ => .pure _) fun _ => ?_
    refine .ite (fun _ => agree_pathOperand inside braces) fun _ => .ite (fun _ => ?_) fun _ => ?_
    · exact .bind (.group _ (agree_expressionList inside)) fun _ => .pure _
    · refine .ite (fun _ => (agree_arrayOperand inside).bind fun _ => .pure _) fun _ => ?_
      refine .ite (fun _ => ?_) fun _ => agree_keywordOperand inside braces
      exact (agree_rangeTail inside braces).bind fun _ => .pure _

/-- A named member may have arguments behind it. -/
theorem agree_namedMember (inside : first.Agree second limit)
    : Agree (limit + 1) (namedMember first) (namedMember second) := by
  refine .after (leaves_sees _) fun _ => .ite (fun _ => (eats_keyword _).agree) fun _ => ?_
  refine .after leaves_member fun _ => .after (leaves_sees _) fun _ => .ite (fun _ => ?_) fun _ => .pure _
  refine (agree_genericArguments inside).discard.bind fun _ => .after (leaves_sees _) fun _ => ?_
  exact (leaves_require _).agree

/-- Two places with a dot between them are one number. -/
theorem leaves_dottedPlaces : Leaves dottedPlaces := by
  intro before answer after read
  unfold dottedPlaces at read
  split at read
  · obtain ⟨places, _, same⟩ := Option.bind_eq_some_iff.mp read
    obtain ⟨rfl, rfl⟩ := Prod.mk.inj (Option.some.inj same)
    exact List.suffix_cons _ _
  · contradiction

/-- A member stands behind its dot. -/
theorem agree_memberTrailer (inside : first.Agree second limit)
    : Agree (limit + 1) (memberTrailer first) (memberTrailer second) := by
  have named := agree_namedMember inside
  refine .after (leaves_mark _) fun _ => .after (leaves_sees _) fun _ => .ite (fun _ => ?_) fun _ => named
  exact .after leaves_dottedPlaces fun _ => .ite (fun _ => named) fun _ => .pure _

/-- Trailers follow one another, by induction on their number: each starts with a mark or is a group. -/
theorem agree_trailers (inside : first.Agree second limit) (fuel : Nat) (form : ExpressionForm)
    : Agree (limit + 1) (trailers first fuel form) (trailers second fuel form) := by
  induction fuel generalizing form with
  | zero => exact .pure _
  | succ fuel ih =>
      have further := ih .plain
      refine .after leaves_front fun _ => .ite (fun _ => ?_) fun _ => .ite (fun _ => ?_) fun _ => ?_
      · exact .bind (.group _ (agree_expressionList inside)) fun _ => further
      · exact .bind (.discard (.group _ (inside.expression true))) fun _ => further
      · refine .ite (fun _ => .pure _) fun _ => .ite (fun _ => ?_) fun _ => ?_
        · exact (agree_memberTrailer inside).bind fun _ => further
        · exact .ite (fun _ => .after (leaves_mark _) fun _ => further) fun _ => .pure _

/-- An operand with its trailers. -/
theorem agree_trailed (inside : first.Agree second limit) (form : ExpressionForm)
    : Agree (limit + 1) (trailed first form) (trailed second form) :=
  .after leaves_front fun _ => agree_trailers inside _ form

/-- The operand of a reference stands behind its mark. -/
theorem agree_referenceOperand (inside : first.Agree second limit) (braces : Bool)
    : Agree (limit + 1) (referenceOperand first braces) (referenceOperand second braces) := by
  refine .eat (eats_mark rfl) fun _ => .after leaves_front fun _ => ?_
  have operand := (inside.operand braces false).discard
  refine .ite (fun _ => ?_) fun _ => ?_
  · exact .after (eats_keyword _).leaves fun _ => .skip eats_anyWord.leaves fun _ => operand
  · exact .skip (leaves_optionalWord _) fun _ => operand

/-- An operand agrees where the parts inside agree in front of lighter tokens. -/
theorem agree_operand (inside : first.Agree second limit) (braces enclosed : Bool)
    : Agree (limit + 1) (operand first braces enclosed) (operand second braces enclosed) := by
  refine .asWrittenIf _ ((agree_outerAttributes inside).bind fun _ => .after leaves_front fun _ => ?_)
  refine .ite (fun _ => ?_) fun _ => .ite (fun _ => .eat (eats_mark ?_) fun _ => ?_) fun _ => ?_
  · exact (agree_referenceOperand inside braces).bind fun _ => .pure _
  · split
    · rfl
    · split <;> rfl
  · exact (inside.operand braces false).discard.bind fun _ => .pure _
  · refine (agree_atom inside braces _).bind fun _ => (agree_trailed inside _).bind fun _ => ?_
    exact .after (leaves_require _) fun _ => .pure _

/-- The first operand of a statement stands where the statement does. -/
theorem agree_earlyOperand (inside : first.Agree second limit)
    (operands : first.OperandsAgree second (limit + 1))
    : Agree (limit + 1) (earlyOperand first) (earlyOperand second) := by
  refine .after (leaves_sees _) fun _ => .ite (fun _ => ?_) fun _ => operands.operand true false
  exact (agree_blockForm inside).bind fun _ => .pure _

/-- So do the operators behind it. -/
theorem agree_behindEarlyOperand (inside : first.Agree second limit)
    (operands : first.OperandsAgree second (limit + 1)) (left : ExpressionForm)
    : Agree (limit + 1) (behindEarlyOperand first left) (behindEarlyOperand second left) := by
  refine .ite (fun _ => operands.operators left true .jump) fun _ => .after (leaves_sees _) fun _ => ?_
  refine .after (leaves_sees _) fun _ => .ite (fun _ => ?_) fun _ => .pure _
  exact (agree_trailed inside left).bind fun left => operands.operators left true .jump

/-- An expression that may end early agrees where operands and operators do, and the parts inside agree in
front of lighter tokens.
-/
theorem agree_earlyExpression (inside : first.Agree second limit)
    (operands : first.OperandsAgree second (limit + 1)) (attributes : Tokens)
    : Agree (limit + 1) (earlyExpression first attributes) (earlyExpression second attributes) := by
  refine (agree_outerAttributes inside).captured.bind fun (_, own) => ?_
  refine (agree_earlyOperand inside operands).captured.bind fun (left, _) => ?_
  refine (agree_behindEarlyOperand inside operands left).captured.bind fun _ => ?_
  exact .after (leaves_print _) fun _ => .pure _

-----------------------------------------------------------------------------------------
-- Statements
-----------------------------------------------------------------------------------------

/-- A variable has its pattern behind `let`. -/
theorem agree_variableStatement (inside : first.Agree second limit)
    : Agree (limit + 1) (variableStatement first) (variableStatement second) := by
  refine .eat (eats_keyword _) fun _ => inside.pattern.discard.bind fun _ => ?_
  refine .after (leaves_optionalMark _) fun _ => .perhaps (inside.type true).discard fun _ => ?_
  refine .after (leaves_optionalMark _) fun _ => .ite (fun _ => ?_) fun _ => (leaves_mark _).agree
  refine (inside.expression true).captured.bind fun _ => .after (leaves_print _) fun _ => ?_
  refine .after (leaves_sees _) fun _ => ?_
  exact .perhapsBoth (eats_keyword _).agree (agree_block inside).lower fun _ => (leaves_mark _).agree

/-- A macro's call keeps its arguments as they are. -/
theorem leaves_callStatement : Leaves callStatement :=
  leaves_of_agree fun _ =>
    .skip leaves_plainPath fun _ => .after (leaves_mark _) fun _ => .skip eats_anyGroup.leaves fun _ =>
      (leaves_optionalMark _).agree.discard

/-- Looking behind attributes agrees as reading them does. -/
theorem agree_behindAttributes? (inside : first.Agree second limit)
    : Agree (limit + 1) (behindAttributes? first) (behindAttributes? second) :=
  (agree_outerAttributes inside).discard.behind

/-- So does looking behind the mark of a call. -/
theorem agree_behindCallMark? (inside : first.Agree second limit)
    : Agree (limit + 1) (behindCallMark? first) (behindCallMark? second) :=
  .behind ((agree_outerAttributes inside).discard.bind fun _ => .skip leaves_plainPath fun _ =>
    (leaves_mark _).agree)

/-- Whether the parts agree that a statement starts with. -/
structure Nested.StatementsAgree (first second : Nested) (limit : Nat) : Prop where
  item : Grammar.Agree limit first.item second.item
  expression : ∀ attributes,
    Grammar.Agree limit (first.earlyExpression attributes) (second.earlyExpression attributes)

/-- A statement is told by what stands behind its attributes. -/
theorem agree_statement (inside : first.Agree second limit)
    (starts : first.StatementsAgree second (limit + 1))
    : Agree (limit + 1) (statement first) (statement second) := by
  refine (agree_behindAttributes? inside).bind fun tokens? => ?_
  cases tokens? with
  | none => exact .failure
  | some tokens =>
      refine (agree_behindCallMark? inside).bind fun called? => .ite (fun _ => ?_) fun _ => ?_
      · exact starts.item.discard.bind fun _ => .pure _
      · refine (agree_outerAttributes inside).captured.bind fun (_, attributes) => ?_
        refine .ite (fun _ => .after (leaves_print _) fun _ => ?_) fun _ => .ite (fun _ => ?_) fun _ => ?_
        · exact .after leaves_callStatement fun _ => .pure _
        · refine .after (leaves_print _) fun _ => ?_
          exact (agree_variableStatement inside).bind fun _ => .pure _
        · refine (starts.expression attributes).bind fun _ => ?_
          exact .after (leaves_optionalMark _) fun _ => .pure _

/-- Statements follow one another, by induction on their number. -/
theorem agree_statementsUpTo (inside : first.Agree second limit)
    (starts : first.StatementsAgree second (limit + 1)) (fuel : Nat)
    : Agree (limit + 1) (statementsUpTo first fuel) (statementsUpTo second fuel) := by
  induction fuel with
  | zero => exact .pure _
  | succ fuel ih =>
      refine .after leaves_front fun _ => .ite (fun _ => .pure _) fun _ => .ite (fun _ => ?_) fun _ => ?_
      · exact .after (leaves_mark _) fun _ => ih
      · refine (agree_statement inside starts).bind fun _ => .after leaves_front fun _ => ?_
        exact .after (leaves_require _) fun _ => ih

/-- Statements agree where items and expressions do, and the parts inside agree in front of lighter tokens. -/
theorem agree_statements (inside : first.Agree second limit)
    (starts : first.StatementsAgree second (limit + 1))
    : Agree (limit + 1) (statements first) (statements second) :=
  .after leaves_front fun _ => agree_statementsUpTo inside starts _

end Wiring.Source.Grammar
