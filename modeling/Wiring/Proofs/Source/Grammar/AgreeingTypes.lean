import Wiring.Proofs.Source.Grammar.AgreeingParsers
import Wiring.Source.Grammar.Patterns
import Wiring.Source.Grammar.Types

/-! Types and patterns that are made alike of other parts. They agree in front of heavier tokens than the
parts inside have to, because a token is read before any of these; only the bounds that a type may start
with stand where the type itself does.
-/

namespace Wiring.Source.Grammar

/-- Whether the parsers of all parts agree in front of tokens lighter than a limit. -/
def Nested.Agree (first second : Nested) (limit : Nat) : Prop :=
  ∀ part, Grammar.Agree limit (first part) (second part)

variable {limit : Nat} {first second : Nested}

namespace Nested.Agree

variable (inside : first.Agree second limit)
include inside

/-- Types inside agree. -/
theorem type (plus : Bool)
    : Grammar.Agree limit (first.type plus) (second.type plus) :=
  inside (.type plus)

/-- So do their bounds. -/
theorem bound (captures constants : Bool)
    : Grammar.Agree limit (first.bound captures constants) (second.bound captures constants) :=
  inside (.bound captures constants)

/-- Expressions inside agree. -/
theorem expression (braces : Bool)
    : Grammar.Agree limit (first.expression braces) (second.expression braces) :=
  inside (.expression braces)

/-- So do operands. -/
theorem operand (braces enclosed : Bool)
    : Grammar.Agree limit (first.operand braces enclosed) (second.operand braces enclosed) :=
  inside (.operand braces enclosed)

/-- So do the operators behind one. -/
theorem operators (left : ExpressionForm) (braces : Bool) (least : Precedence)
    : Grammar.Agree limit (first.operators left braces least) (second.operators left braces least) :=
  inside (.operators left braces least)

/-- So do expressions that start a statement. -/
theorem earlyExpression (attributes : Tokens)
    : Grammar.Agree limit (first.earlyExpression attributes) (second.earlyExpression attributes) :=
  inside (.earlyExpression attributes)

/-- Statements inside agree. -/
theorem statements : Grammar.Agree limit first.statements second.statements :=
  inside .statements

/-- Patterns inside agree. -/
theorem pattern : Grammar.Agree limit first.pattern second.pattern :=
  inside .pattern

/-- Items inside agree. -/
theorem item : Grammar.Agree limit first.item second.item :=
  inside .item

end Nested.Agree

-----------------------------------------------------------------------------------------
-- Attributes
-----------------------------------------------------------------------------------------

/-- A plain path reads words and marks alone, by induction on its bound. -/
theorem leaves_plainSegments (fuel : Nat)
    : Leaves (plainSegments fuel) := by
  refine leaves_of_agree fun limit => ?_
  induction fuel with
  | zero => exact .failure
  | succ fuel ih =>
      refine .after (leaves_sees _) fun _ => .after (leaves_require _) fun _ => ?_
      refine .after eats_anyWord.leaves fun _ => .after (leaves_optionalMark _) fun _ => ?_
      exact .ite (fun _ => ih.bind fun _ => .pure _) fun _ => .pure _

/-- So it has no parts inside. -/
theorem leaves_plainPath : Leaves plainPath :=
  leaves_of_agree fun _ =>
    .after (leaves_optionalMark _) fun _ => .after leaves_front fun _ =>
      .after (leaves_plainSegments _) fun _ => .pure _

/-- An attribute may hold an expression behind its path. -/
theorem agree_attributeContents (inside : first.Agree second limit)
    : Agree limit (attributeContents first) (attributeContents second) := by
  refine .after (leaves_optionalWord _) fun _ => .choice (.pure _) leaves_plainPath.agree ?_
  refine fun ⟨rooted, path⟩ => .after (leaves_sees _) fun _ => .ite (fun _ => ?_) fun _ => ?_
  · exact .after eats_anyGroup.leaves fun _ => .pure _
  · refine .after (leaves_optionalMark _) fun _ => .ite (fun _ => ?_) fun _ => .pure _
    refine .after leaves_front fun _ => .after (leaves_require _) fun _ => ?_
    exact (inside.expression true).discard.bind fun _ => .pure _

/-- It is inside its brackets, behind a mark. -/
theorem agree_outerAttribute (inside : first.Agree second limit)
    : Agree (limit + 1) (outerAttribute first) (outerAttribute second) :=
  .eat (eats_mark rfl) fun _ => (Agree.group _ (agree_attributeContents inside)).lower

/-- So is that of an inner one, behind two marks. -/
theorem agree_innerAttribute (inside : first.Agree second limit)
    : Agree (limit + 1) (innerAttribute first) (innerAttribute second) :=
  .eat (eats_mark rfl) fun _ => .after (leaves_mark _) fun _ =>
    (Agree.group _ (agree_attributeContents inside)).lower

/-- One attribute after the other. -/
theorem agree_outerAttributes (inside : first.Agree second limit)
    : Agree (limit + 1) (outerAttributes first) (outerAttributes second) :=
  (agree_outerAttribute inside).manyWhile _

/-- The same for inner ones. -/
theorem agree_innerAttributes (inside : first.Agree second limit)
    : Agree (limit + 1) (innerAttributes first) (innerAttributes second) :=
  (agree_innerAttribute inside).manyWhile _

/-- Statements are inside the braces of a block. -/
theorem agree_block (inside : first.Agree second limit)
    : Agree (limit + 1) (block first) (block second) :=
  .group _ inside.statements

/-- So are they behind inner attributes. -/
theorem agree_attributedBlock (inside : first.Agree second limit)
    : Agree (limit + 1) (attributedBlock first) (attributedBlock second) :=
  .group _ ((agree_innerAttributes inside).lower.discard.bind fun _ => inside.statements)

-----------------------------------------------------------------------------------------
-- Arguments of paths
-----------------------------------------------------------------------------------------

/-- A constant is a literal, a block or a word. -/
theorem agree_constantArgument (inside : first.Agree second limit)
    : Agree (limit + 1) (constantArgument first) (constantArgument second) := by
  refine .after (leaves_sees _) fun _ => .ite (fun _ => eats_literal.agree) fun _ => ?_
  refine .after (leaves_sees _) fun _ => .ite (fun _ => eats_identifier.agree.discard) fun _ => ?_
  exact agree_attributedBlock inside

/-- The value of an argument is a constant or a type. -/
theorem agree_argumentValue (inside : first.Agree second limit)
    : Agree limit (argumentValue first) (argumentValue second) := by
  refine .after (leaves_sees _) fun _ => .after (leaves_sees _) fun _ => ?_
  exact .ite (fun _ => (agree_constantArgument inside).lower) fun _ => (inside.type true).discard

/-- An argument is told by its first tokens: a lifetime, a binding, a constant or a type. -/
theorem agree_genericArgument (inside : first.Agree second limit)
    : Agree limit (genericArgument first) (genericArgument second) := by
  refine .after leaves_front fun _ => .ite (fun _ => ?_) fun _ => .ite (fun _ => ?_) fun _ => ?_
  · exact .after eats_lifetime.leaves fun _ => .pure _
  · exact (agree_constantArgument inside).lower.bind fun _ => .pure _
  · refine (inside.type true).bind fun _ => .ite (fun _ => .pure _) fun _ => ?_
    refine .after (leaves_optionalMark _) fun _ => .ite (fun _ => ?_) fun _ => ?_
    · exact (agree_argumentValue inside).bind fun _ => .pure _
    · refine .after (leaves_optionalMark _) fun _ => .ite (fun _ => ?_) fun _ => .pure _
      exact ((inside.bound false true).joined _ _).discard.bind fun _ => .pure _

/-- Arguments stand behind an angle bracket. -/
theorem agree_genericArguments (inside : first.Agree second limit)
    : Agree (limit + 1) (genericArguments first) (genericArguments second) := by
  refine .skip (leaves_optionalMark _) fun _ => .eat (eats_mark rfl) fun _ => ?_
  have arguments := ((agree_genericArgument inside).captured.separated (isMark ">") ",").silently
  refine arguments.bind fun _ => .after (leaves_print _) fun _ => ?_
  exact .after (leaves_mark _) fun _ => .pure _

-----------------------------------------------------------------------------------------
-- Paths
-----------------------------------------------------------------------------------------

/-- A segment is a word, and arguments behind it. -/
theorem agree_segment (inside : first.Agree second limit) (place : PathPlace)
    : Agree (limit + 1) (segment first place) (segment second place) := by
  refine .after (leaves_sees _) fun _ => .ite (fun _ => ?_) fun _ => ?_
  · exact .after eats_anyWord.leaves fun _ => .pure _
  · refine .after (leaves_sees _) fun _ => .choice eats_anyWord.agree eats_identifier.agree fun _ => ?_
    refine .after (leaves_sees _) fun _ => .ite (fun _ => ?_) fun _ => .pure _
    refine (agree_genericArguments inside).captured.bind fun _ => .after (leaves_sees _) fun _ => ?_
    exact .after (leaves_print _) fun _ => .pure _

/-- A path is made of segments, with marks between them. -/
theorem agree_path (inside : first.Agree second limit) (place : PathPlace)
    : Agree (limit + 1) (path first place) (path second place) := by
  refine .after (leaves_optionalMark _) fun _ => (agree_segment inside place).bind fun _ => ?_
  refine .bind (.manyWhile _ ?_) fun _ => .pure _
  exact .after (leaves_mark _) fun _ => agree_segment inside place

/-- The type and the trait of a member path stand behind an angle bracket. -/
theorem agree_memberPath (inside : first.Agree second limit) (place : PathPlace)
    : Agree (limit + 1) (memberPath first place) (memberPath second place) := by
  refine .eat (eats_mark rfl) fun _ => (inside.type true).discard.bind fun _ => ?_
  refine .after (leaves_optionalWord _) fun _ => .perhaps (agree_path inside .type).lower.discard ?_
  refine fun _ => .after (leaves_mark _) fun _ => .after (leaves_mark _) fun _ => ?_
  have step := (agree_segment inside place).lower
  refine step.bind fun _ => .bind (.manyWhile _ ?_) fun _ => .pure _
  exact .after (leaves_mark _) fun _ => step

/-- Which of the two a path is, the first mark tells. -/
theorem agree_anyPath (inside : first.Agree second limit) (place : PathPlace)
    : Agree (limit + 1) (anyPath first place) (anyPath second place) := by
  refine .after (leaves_sees _) fun _ => .ite (fun _ => ?_) fun _ => ?_
  · exact (agree_memberPath inside place).bind fun _ => .pure _
  · exact (agree_path inside place).bind fun _ => .pure _

/-- A returned type stands behind its arrow. -/
theorem agree_returnType (inside : first.Agree second limit) (plus : Bool)
    : Agree (limit + 1) (returnType first plus) (returnType second plus) :=
  .optionalMark rfl (inside.type plus).discard (.pure _)

/-- The arguments of a function trait are inside parentheses. -/
theorem agree_callArguments (inside : first.Agree second limit)
    : Agree (limit + 1) (callArguments first) (callArguments second) := by
  refine .bind (.discard (.group _ (inside.type true).commaList)) fun _ => ?_
  exact agree_returnType inside false

/-- The path of a trait may be followed by such arguments. -/
theorem agree_traitPath (inside : first.Agree second limit)
    : Agree (limit + 1) (traitPath first) (traitPath second) := by
  refine (agree_path inside .trait).bind fun _ => .after (leaves_sees _) fun _ => ?_
  refine .ite (fun _ => ?_) fun _ => .pure _
  refine .bind (.discard (.silently ?_)) fun _ => agree_callArguments inside
  exact (leaves_optionalMark _).agree

-----------------------------------------------------------------------------------------
-- Bounds and generic parameters
-----------------------------------------------------------------------------------------

/-- Bounds of a parameter stand behind a colon. -/
theorem agree_parameterBounds {α : Type} {bound other : Parser α} (ends : Tokens → Bool)
    (agree : Agree limit bound other)
    : Agree (limit + 1) (parameterBounds ends bound) (parameterBounds ends other) := by
  refine .after (leaves_sees _) fun _ => .ite (fun _ => ?_) fun _ => .pure _
  have behind : Agree (limit + 1)
      (do mark ":"; joined ends "+" bound) (do mark ":"; joined ends "+" other) :=
    .eat (eats_mark rfl) fun _ => agree.joined ends "+"
  exact behind.captured.bind fun _ => (leaves_print _).agree

/-- A parameter is told by its first tokens, behind its attributes. -/
theorem agree_genericParameter (inside : first.Agree second limit) (blank : Bool)
    : Agree (limit + 1) (genericParameter first blank) (genericParameter second blank) := by
  refine (agree_outerAttributes inside).discard.bind fun _ => .after (leaves_sees _) fun _ => ?_
  refine .ite (fun _ => ?_) fun _ => .optionalWord ?constant ?other
  · refine .after eats_lifetime.leaves fun _ => .bind ?_ fun _ => .pure _
    exact agree_parameterBounds _ eats_lifetime.agree
  case constant =>
    refine .skip eats_identifier.leaves fun _ => .after (leaves_mark _) fun _ => ?_
    refine (inside.type true).discard.bind fun _ => .after (leaves_optionalMark _) fun _ => ?_
    exact .perhaps (agree_constantArgument inside).lower fun _ => .pure _
  case other =>
    refine .after (leaves_sees _) fun _ => .ite (fun _ => ?_) fun _ => ?_
    · exact .skip eats_anyWord.leaves fun _ => .pure _
    · refine .skip eats_identifier.leaves fun _ => ?_
      refine (agree_parameterBounds _ (inside.bound false true)).bind fun _ => ?_
      exact .optionalMark rfl ((inside.type true).discard.bind fun _ => .pure _) (.pure _)

/-- Bound parameters stand behind `for` and an angle bracket. -/
theorem agree_boundParameters (inside : first.Agree second limit)
    : Agree (limit + 1) (boundParameters first) (boundParameters second) := by
  refine .after (eats_keyword _).leaves fun _ => .after (leaves_mark _) fun _ => ?_
  refine ((agree_genericParameter inside false).separated _ _).discard.bind fun _ => ?_
  exact (leaves_mark _).agree

/-- Generic parameters stand behind an angle bracket. -/
theorem agree_bracketedParameters (inside : first.Agree second limit)
    : Agree (limit + 1) (bracketedParameters first) (bracketedParameters second) := by
  refine .bind (.silently (.after (leaves_mark _) fun _ => ?_)) fun _ => ?_
  · refine .bind (.separated _ _ (agree_genericParameter inside true).captured) fun _ => ?_
    exact .after (leaves_mark _) fun _ => .pure _
  · exact .ite (fun _ => .pure _) fun _ => .after (leaves_print _) fun _ => .pure _

/-- They may be missing. -/
theorem agree_genericParameters (inside : first.Agree second limit)
    : Agree (limit + 1) (genericParameters first) (genericParameters second) :=
  .after (leaves_sees _) fun _ => .ite (fun _ => agree_bracketedParameters inside) fun _ => .pure _

/-- A predicate is one of a lifetime or of a type. -/
theorem agree_wherePredicate (inside : first.Agree second limit)
    : Agree limit (wherePredicate first) (wherePredicate second) := by
  refine .after leaves_front fun _ => .ite (fun _ => ?_) fun _ => ?_
  · refine .after eats_lifetime.leaves fun _ => .after (leaves_mark _) fun _ => ?_
    exact (eats_lifetime.agree.joined _ _).discard
  · refine .perhaps (agree_boundParameters inside).lower fun _ => ?_
    refine (inside.type true).discard.bind fun _ => .after (leaves_mark _) fun _ => ?_
    exact ((inside.bound false true).joined _ _).discard

/-- Predicates stand behind `where`. -/
theorem agree_whereClause (inside : first.Agree second limit)
    : Agree (limit + 1) (whereClause first) (whereClause second) := by
  refine .after (leaves_sees _) fun _ => .ite (fun _ => ?_) fun _ => .pure _
  refine .bind (.captured (.eat (eats_keyword _) fun _ => ?_)) fun _ => ?_
  · refine .after (leaves_sees _) fun _ => .after (leaves_require _) fun _ => ?_
    exact (agree_wherePredicate inside).joined _ _
  · exact .after (leaves_print _) fun _ => .pure _

/-- A captured name is one token or two. -/
theorem leaves_capturedName : Leaves capturedNames.capturedName := by
  refine leaves_of_agree fun _ => .after (leaves_sees _) fun _ => .ite (fun _ => ?_) fun _ => ?_
  · exact .after eats_lifetime.leaves fun _ => .pure _
  · refine .after (leaves_sees _) fun _ => ?_
    refine .bind (.discard (.ite (fun _ => ?_) fun _ => ?_)) fun _ => .pure _
    · exact eats_anyWord.agree
    · exact eats_identifier.agree

/-- Captured names have no parts inside. -/
theorem leaves_capturedNames : Leaves capturedNames := by
  refine leaves_of_agree fun _ => .after (eats_keyword _).leaves fun _ => ?_
  refine .after (leaves_mark _) fun _ => .bind (.silently (.separated _ _ ?_)) fun _ => ?_
  · exact leaves_capturedName.agree.captured
  · exact .after (leaves_print _) fun _ => (leaves_mark _).agree

/-- Nor has the mark for constants. -/
theorem leaves_constantMark : Leaves constantMark := by
  refine leaves_of_agree fun _ => .after (leaves_sees _) fun _ => .ite (fun _ => ?_) fun _ => ?_
  · exact .after (eats_group _ _).leaves fun _ => .pure _
  · exact (leaves_optionalWord _).agree

/-- The bound of a trait is its path, behind modifiers and parameters. -/
theorem agree_traitBound (inside : first.Agree second limit) (constants : Bool)
    : Agree (limit + 1) (traitBound first constants) (traitBound second constants) := by
  refine .after (leaves_sees _) fun _ => .perhaps (agree_boundParameters inside) fun _ => ?_
  refine .after leaves_constantMark fun _ => .after (leaves_require _) fun _ => ?_
  refine .after (leaves_optionalMark _) fun _ => .after (leaves_require _) fun _ => ?_
  exact (agree_traitPath inside).bind fun _ => .pure _

/-- In parentheses, a bound is behind them. -/
theorem agree_enclosedTraitBound (inside : first.Agree second limit) (constants : Bool)
    : Agree (limit + 1) (enclosedTraitBound first constants) (enclosedTraitBound second constants) := by
  rw [enclosedTraitBound, enclosedTraitBound]
  have bounds := (agree_traitBound inside constants).captured
  refine .after (leaves_sees _) fun _ => .ite (fun _ => .group _ (Agree.lower ?_)) fun _ => ?_
  all_goals exact bounds.bind fun _ => .after (leaves_print _) fun _ => .pure _

/-- A bound agrees where the parts inside agree in front of lighter tokens. -/
theorem agree_bound (inside : first.Agree second limit) (captures constants : Bool)
    : Agree (limit + 1) (bound first captures constants) (bound second captures constants) := by
  refine .after (leaves_sees _) fun _ => .ite (fun _ => ?_) fun _ => ?_
  · exact .after eats_lifetime.leaves fun _ => .pure _
  · refine .after (leaves_sees _) fun _ => .ite (fun _ => ?_) fun _ => ?_
    · exact .after (leaves_require _) fun _ => .after leaves_capturedNames fun _ => .pure _
    · exact (agree_enclosedTraitBound inside constants).asWrittenIf _

-----------------------------------------------------------------------------------------
-- Types
-----------------------------------------------------------------------------------------

/-- Whether the bounds agree where the parts do, for the bounds that stand where a type does. -/
def Nested.BoundsAgree (first second : Nested) (limit : Nat) : Prop :=
  ∀ captures constants,
    Grammar.Agree limit (first.bound captures constants) (second.bound captures constants)

/-- Bounds are joined by plus marks, by induction on their number. The first one stands where the sum
does.
-/
theorem agree_boundSum (bounds : first.BoundsAgree second limit) (plus captures constants : Bool)
    (fuel : Nat)
    : Agree limit (boundSum first plus captures constants fuel)
        (boundSum second plus captures constants fuel) := by
  induction fuel with
  | zero => exact .failure
  | succ fuel ih =>
      refine (bounds captures constants).bind fun _ => .after (leaves_sees _) fun _ => ?_
      refine .ite (fun _ => .after (leaves_mark _) fun _ => ?_) fun _ => .pure _
      refine .after (leaves_sees _) fun _ => .ite (fun _ => ?_) fun _ => .pure _
      exact ih.bind fun _ => .pure _

/-- A sum has to hold a trait, which is looked for in the answer alone. -/
theorem agree_traitSum (bounds : first.BoundsAgree second limit) (plus captures constants : Bool)
    : Agree limit (traitSum first plus captures constants) (traitSum second plus captures constants) :=
  .after leaves_front fun _ => (agree_boundSum bounds plus captures constants _).bind fun _ =>
    (leaves_require _).agree

/-- Further bounds each stand behind a plus mark. -/
theorem agree_furtherBounds (inside : first.Agree second limit)
    : Agree (limit + 1) (furtherBounds first) (furtherBounds second) := by
  refine .discard (.manyWhile _ (.eat (eats_mark rfl) fun _ => .after (leaves_sees _) fun _ => ?_))
  exact .ite (fun _ => (inside.bound false false).discard) fun _ => .pure _

/-- The same where only bounds may follow. -/
theorem agree_strictBounds (inside : first.Agree second limit)
    : Agree (limit + 1) (strictBounds first) (strictBounds second) :=
  .discard (.manyWhile _ (.eat (eats_mark rfl) fun _ => (inside.bound false false).discard))

/-- Whether bounds follow is told by the first token. -/
theorem agree_traitBehind {bounds others : Parser Unit} (agree : Agree limit bounds others)
    (tokens : Tokens)
    : Agree limit (traitBehind tokens bounds) (traitBehind tokens others) :=
  .after (leaves_sees _) fun _ => .ite (fun _ => agree.bind fun _ => .pure _) fun _ => .pure _

/-- A path as a type, with what may follow it: a macro's arguments, or further bounds. -/
theorem agree_pathType (inside : first.Agree second limit) (plus : Bool) (binder : Tokens)
    : Agree (limit + 1) (pathType first plus binder) (pathType second plus binder) := by
  refine (agree_anyPath inside .type).captured.bind fun ((_, _), _) => .ite (fun _ => ?_) fun _ => ?_
  · exact .after (leaves_print _) fun _ => .pure _
  · refine .after (leaves_sees _) fun _ => .ite (fun _ => ?_) fun _ => ?_
    · refine .after (leaves_print _) fun _ => .after (leaves_mark _) fun _ => ?_
      exact .skip eats_anyGroup.leaves fun _ => .pure _
    · refine .after (leaves_print _) fun _ => .after (leaves_sees _) fun _ => ?_
      exact .ite (fun _ => (agree_furtherBounds inside).bind fun _ => .pure _) fun _ => .pure _

/-- An argument of a function pointer may have a name in front of its type. -/
theorem agree_pointerArgument (inside : first.Agree second limit) (isFirst : Bool)
    : Agree limit (pointerArgument first isFirst) (pointerArgument second isFirst) := by
  refine .asWrittenIf _ (.after (leaves_sees _) fun _ => ?_)
  refine .perhaps (eats_keyword _).agree fun _ => .after leaves_front fun _ => ?_
  refine .perhapsBoth eats_anyWord.agree.discard (leaves_mark _).agree fun _ => ?_
  refine .after leaves_front fun _ => .ite (fun _ => ?_) fun _ => .ite (fun _ => ?_) fun _ => ?_
  · exact .after (eats_keyword _).leaves fun _ => .after (eats_keyword _).leaves fun _ => .pure _
  · exact .after (eats_keyword _).leaves fun _ => .pure _
  · exact (inside.type true).discard.bind fun _ => .pure _

/-- Its arguments are read up to the end, or to the dots, by induction on their number. -/
theorem agree_pointerArguments (inside : first.Agree second limit) (isFirst : Bool) (fuel : Nat)
    : Agree limit (pointerArguments first isFirst fuel) (pointerArguments second isFirst fuel) := by
  induction fuel generalizing isFirst with
  | zero => exact .pure _
  | succ fuel ih =>
      refine .after leaves_front fun _ => .ite (fun _ => .pure _) fun _ => ?_
      refine (agree_outerAttributes inside).lower.discard.bind fun _ => .after (leaves_sees _) fun _ => ?_
      refine .ite (fun _ => .after (leaves_sees _) fun _ => ?_) fun _ => ?_
      · refine .perhapsBoth eats_anyWord.agree.discard (leaves_mark _).agree fun _ => ?_
        exact .after (leaves_mark _) fun _ => (leaves_optionalMark _).agree.discard
      · refine (agree_pointerArgument inside isFirst).discard.bind fun _ => .after leaves_front fun _ => ?_
        exact .ite (fun _ => .pure _) fun _ => .after (leaves_mark _) fun _ => ih false

/-- A calling convention is words and a text. -/
theorem leaves_convention : Leaves convention := by
  refine leaves_of_agree fun _ => .after (leaves_optionalWord _) fun _ => ?_
  refine .ite (fun _ => .after (leaves_sees _) fun _ => ?_) fun _ => .pure _
  exact .ite (fun _ => eats_literal.agree) fun _ => .pure _

/-- A function pointer has its arguments in parentheses. -/
theorem agree_functionPointer (inside : first.Agree second limit)
    : Agree (limit + 1) (functionPointer first) (functionPointer second) := by
  refine .skip (leaves_optionalWord _) fun _ => .after leaves_convention fun _ => ?_
  refine .after (eats_keyword _).leaves fun _ => .bind (.group _ ?_) fun _ => ?_
  · exact .after leaves_front fun _ => agree_pointerArguments inside true _
  · exact agree_returnType inside false

/-- Behind bound parameters there is a function pointer or a path. -/
theorem agree_quantifiedType (inside : first.Agree second limit) (plus : Bool)
    : Agree (limit + 1) (quantifiedType first plus) (quantifiedType second plus) := by
  refine (agree_boundParameters inside).captured.bind fun (_, binder) => ?_
  refine .after (leaves_sees _) fun _ => .ite (fun _ => .after (leaves_print _) fun _ => ?_) fun _ => ?_
  · exact (agree_functionPointer inside).bind fun _ => .pure _
  · refine .after (leaves_sees _) fun _ => .after (leaves_require _) fun _ => ?_
    exact agree_pathType inside plus binder

/-- A built-in type keeps its tokens as they are. -/
theorem leaves_builtinType : Leaves builtinType := by
  refine leaves_of_agree fun _ => .asWritten (.after (eats_keyword _).leaves fun _ => ?_)
  refine .after (leaves_mark _) fun _ => .skip eats_identifier.leaves fun _ => ?_
  exact (eats_group _ _).agree

/-- A tuple of types starts with one of them. -/
theorem agree_typeTuple (inside : first.Agree second limit)
    : Agree limit (typeTuple first) (typeTuple second) := by
  refine (inside.type true).bind fun _ => .after leaves_front fun _ => ?_
  refine .ite (fun _ => .pure _) fun _ => .after (leaves_mark _) fun _ => ?_
  exact (inside.type true).commaList.discard.bind fun _ => .pure _

/-- It is inside parentheses, behind which further bounds may stand. -/
theorem agree_tupleType (inside : first.Agree second limit) (plus : Bool)
    : Agree (limit + 1) (tupleType first plus) (tupleType second plus) := by
  refine .bind (.captured (.group _ (agree_typeTuple inside))) fun (only?, printed) => ?_
  have bounds (tokens : Tokens)
      : Agree (limit + 1)
          (do print tokens; strictBounds first; return TypeForm.other)
          (do print tokens; strictBounds second; return TypeForm.other) :=
    .after (leaves_print _) fun _ => (agree_strictBounds inside).bind fun _ => .pure _
  refine .after (leaves_sees _) fun _ => .ite (fun _ => ?_) fun _ => ?_
  · split
    · exact bounds printed
    · exact bounds _
    · exact .after (leaves_print _) fun _ => .pure _
  · exact .after (leaves_print _) fun _ => .pure _

/-- Which kind of parentheses these are, the tokens inside tell. -/
theorem agree_parenType (inside : first.Agree second limit) (plus : Bool) (inner : Tokens)
    : Agree (limit + 1) (parenType first plus inner) (parenType second plus inner) := by
  refine .ite (fun _ => ?_) fun _ => .ite (fun _ => ?_) fun _ => .ite (fun _ => ?_) fun _ => ?_
  · exact .after (eats_group _ _).leaves fun _ => .pure _
  · exact .bind (.group _ (agree_traitSum inside.bound true false false)) fun _ => .pure _
  · refine .bind (.group _ ?_) fun _ => agree_traitBehind (agree_strictBounds inside) _
    refine (agree_traitBound inside false).lower.captured.bind fun _ => ?_
    exact .after (leaves_print _) fun _ => .pure _
  · exact agree_tupleType inside plus

/-- A slice or an array has its type in brackets. -/
theorem agree_sequenceType (inside : first.Agree second limit)
    : Agree (limit + 1) (sequenceType first) (sequenceType second) := by
  refine .group _ ((inside.type true).discard.bind fun _ => .after (leaves_optionalMark _) fun _ => ?_)
  exact .ite (fun _ => (inside.expression true).discard) fun _ => .pure _

/-- The bounds of an object stand behind `dyn`. -/
theorem agree_objectType (inside : first.Agree second limit) (plus : Bool)
    : Agree (limit + 1) (objectType first plus) (objectType second plus) := by
  refine .discard (.asWrittenIf _ (.eat (eats_keyword _) fun _ => ?_))
  refine .after (leaves_optionalMark _) fun _ => ?_
  exact (agree_traitSum inside.bound plus false false).bind fun _ => .pure _

/-- The type of a pointer stands behind its mark. -/
theorem agree_pointerType (inside : first.Agree second limit)
    : Agree (limit + 1) (pointerType first) (pointerType second) := by
  refine .eat (eats_mark rfl) fun _ => .after (leaves_optionalWord _) fun _ => ?_
  exact .perhaps (eats_keyword _).agree fun _ => (inside.type false).discard

/-- So does that of a reference. -/
theorem agree_referenceType (inside : first.Agree second limit)
    : Agree (limit + 1) (referenceType first) (referenceType second) := by
  refine .eat (eats_mark rfl) fun _ => .after (leaves_sees _) fun _ => ?_
  refine .perhaps eats_lifetime.agree fun _ => .skip (leaves_optionalWord _) fun _ => ?_
  exact (inside.type false).discard

/-- A type that starts with a keyword is told by it; only `impl` and bare bounds stand where the type
does.
-/
theorem agree_keywordType (inside : first.Agree second limit)
    (bounds : first.BoundsAgree second (limit + 1)) (plus : Bool)
    : Agree (limit + 1) (keywordType first plus) (keywordType second plus) := by
  refine .after leaves_front fun _ => .ite (fun _ => agree_functionPointer inside) fun _ => ?_
  refine .ite (fun _ => agree_objectType inside plus) fun _ => ?_
  refine .ite (fun _ => agree_pointerType inside) fun _ => ?_
  refine .ite (fun _ => agree_referenceType inside) fun _ => ?_
  refine .ite (fun _ => (leaves_mark _).agree) fun _ => .ite (fun _ => ?_) fun _ => ?_
  · exact .eat (eats_keyword _) fun _ => agree_traitSum inside.bound plus true true
  · refine .ite (fun _ => (eats_keyword _).agree) fun _ => .ite (fun _ => ?_) fun _ => .failure
    exact agree_traitSum bounds true false false

/-- A type agrees where the parts inside agree in front of lighter tokens, and bounds agree in front of the
same ones.
-/
theorem agree_typeExpr (inside : first.Agree second limit)
    (bounds : first.BoundsAgree second (limit + 1)) (plus : Bool)
    : Agree (limit + 1) (typeExpr first plus) (typeExpr second plus) := by
  refine .after leaves_front fun tokens => ?_
  split
  · exact agree_parenType inside plus _
  · exact (agree_sequenceType inside).bind fun _ => .pure _
  · refine .ite (fun _ => agree_quantifiedType inside plus) fun _ => .ite (fun _ => ?_) fun _ => ?_
    · exact .after leaves_builtinType fun _ => .pure _
    · refine .ite (fun _ => agree_pathType inside plus []) fun _ => ?_
      exact (agree_keywordType inside bounds plus).bind fun _ => .pure _

/-- A written type is printed from what it was read of. -/
theorem agree_writtenType (inside : first.Agree second limit)
    : Agree limit (writtenType first) (writtenType second) :=
  (inside.type true).captured.bind fun _ => .after (leaves_print _) fun _ => .pure _

-----------------------------------------------------------------------------------------
-- Patterns
-----------------------------------------------------------------------------------------

/-- The place of a field is one number. -/
theorem eats_fieldPlace : Eats fieldPlace := by
  intro before answer after read
  unfold fieldPlace at read
  split at read
  · obtain ⟨place, _, same⟩ := Option.map_eq_some_iff.mp read
    obtain ⟨rfl, rfl⟩ := Prod.mk.inj same
    exact ⟨_, List.suffix_refl _⟩
  · contradiction

/-- A member is a name or a place. -/
theorem leaves_member : Leaves member := by
  refine leaves_of_agree fun _ => .after (leaves_sees _) fun _ => .ite (fun _ => ?_) fun _ => ?_
  · exact .skip eats_identifier.leaves fun _ => .pure _
  · exact .after eats_fieldPlace.leaves fun _ => .pure _

/-- Alternatives are patterns with bars between them. -/
theorem agree_alternatives (inside : first.Agree second limit)
    : Agree limit (alternatives first) (alternatives second) := by
  refine .after (leaves_optionalMark _) fun _ => inside.pattern.bind fun _ => ?_
  refine .bind (.manyWhile _ ?_) fun _ => .pure _
  exact .after (leaves_mark _) fun _ => inside.pattern

/-- A list of them. -/
theorem agree_patternList (inside : first.Agree second limit)
    : Agree limit (patternList first) (patternList second) :=
  (agree_alternatives inside).commaList.discard

/-- The bound of a range is missing or an operand. -/
theorem agree_rangeBound (inside : first.Agree second limit)
    : Agree (limit + 1) (rangeBound first) (rangeBound second) := by
  refine .after (leaves_sees _) fun _ => .ite (fun _ => .pure _) fun _ => .after (leaves_sees _) fun _ => ?_
  refine .ite (fun _ => .after eats_literal.leaves fun _ => .pure _) fun _ => ?_
  refine .after (leaves_sees _) fun _ => .ite (fun _ => ?_) fun _ => ?_
  · exact (agree_anyPath inside .expression).discard.bind fun _ => .pure _
  · refine .after (eats_keyword _).leaves fun _ => ?_
    exact (agree_attributedBlock inside).bind fun _ => .pure _

/-- The dots of a range are a mark. -/
theorem leaves_patternDots : Leaves patternDots := by
  refine leaves_of_agree fun _ => .after (leaves_optionalMark _) fun _ => .ite (fun _ => .pure _) fun _ => ?_
  refine .after (leaves_sees _) fun _ => .ite (fun _ => ?_) fun _ => ?_
  · refine (leaves_mark _).agree.silently.bind fun _ => ?_
    exact .after (leaves_print _) fun _ => .pure _
  · exact .after (leaves_mark _) fun _ => .pure _

/-- A range goes on behind its dots. -/
theorem agree_rangeBehind (inside : first.Agree second limit)
    : Agree (limit + 1) (rangeBehind first) (rangeBehind second) :=
  .after leaves_patternDots fun _ => (agree_rangeBound inside).bind fun _ =>
    .after (leaves_require _) fun _ => .pure _

/-- So does one without a start. -/
theorem agree_rangeWithoutStart (inside : first.Agree second limit)
    : Agree (limit + 1) (rangeWithoutStart first) (rangeWithoutStart second) :=
  .after leaves_patternDots fun _ => (agree_rangeBound inside).bind fun _ =>
    .after (leaves_require _) fun _ => .pure _

/-- A pattern that is a constant may start a range. -/
theorem agree_boundPattern (inside : first.Agree second limit)
    : Agree (limit + 1) (boundPattern first) (boundPattern second) := by
  refine (agree_rangeBound inside).bind fun _ => .after (leaves_require _) fun _ => ?_
  exact .after (leaves_sees _) fun _ => .ite (fun _ => agree_rangeBehind inside) fun _ => .pure _

/-- The pattern of a field may stand behind its name. -/
theorem agree_fieldPattern (inside : first.Agree second limit)
    : Agree limit (fieldPattern first) (fieldPattern second) := by
  refine .discard (.asWrittenIf _ (.after (leaves_optionalWord _) fun _ => ?_))
  refine .after (leaves_optionalWord _) fun _ => .after (leaves_optionalWord _) fun _ => ?_
  refine .ite (fun _ => .skip eats_identifier.leaves fun _ => .pure _) fun _ => ?_
  refine .after leaves_member fun _ => .after (leaves_sees _) fun _ => ?_
  exact .perhapsBoth (leaves_mark _).agree (agree_alternatives inside).discard fun _ => .pure _

/-- Patterns of fields, with their attributes. -/
theorem agree_fieldPatterns (inside : first.Agree second limit)
    : Agree limit (fieldPatterns first) (fieldPatterns second) := by
  refine .discard (.commaList ((agree_outerAttributes inside).lower.discard.bind fun _ => ?_))
  refine .after (leaves_optionalMark _) fun _ => .ite (fun _ => ?_) fun _ => agree_fieldPattern inside
  exact .after leaves_front fun _ => (leaves_require _).agree

/-- A pattern that starts with a path is told by what stands behind it. -/
theorem agree_pathPattern (inside : first.Agree second limit)
    : Agree (limit + 1) (pathPattern first) (pathPattern second) := by
  refine (agree_anyPath inside .expression).bind fun _ => .after (leaves_sees _) fun _ => ?_
  refine .ite (fun _ => .after (leaves_mark _) fun _ => ?_) fun _ => ?_
  · exact .skip eats_anyGroup.leaves fun _ => .pure _
  · refine .after (leaves_sees _) fun _ => .ite (fun _ => ?_) fun _ => ?_
    · exact .bind (.group _ (agree_fieldPatterns inside)) fun _ => .pure _
    · refine .after (leaves_sees _) fun _ => .ite (fun _ => ?_) fun _ => ?_
      · exact .bind (.group _ (agree_patternList inside)) fun _ => .pure _
      · refine .after (leaves_sees _) fun _ => ?_
        exact .ite (fun _ => agree_rangeBehind inside) fun _ => .pure _

/-- A name may have a pattern behind an at sign. -/
theorem agree_namePattern (inside : first.Agree second limit)
    : Agree (limit + 1) (namePattern first) (namePattern second) := by
  refine .skip (leaves_optionalWord _) fun _ => .skip (leaves_optionalWord _) fun _ => ?_
  refine .after (leaves_sees _) fun _ => .choice eats_anyWord.agree eats_identifier.agree fun _ => ?_
  exact .optionalMark rfl (inside.pattern.discard.bind fun _ => .pure _) (.pure _)

/-- An element of a slice. -/
theorem agree_elementPattern (inside : first.Agree second limit)
    : Agree limit (elementPattern first) (elementPattern second) :=
  (agree_alternatives inside).bind fun _ => (leaves_require _).agree

/-- The other patterns are told by their first tokens. -/
theorem agree_otherPattern (inside : first.Agree second limit)
    : Agree (limit + 1) (otherPattern first) (otherPattern second) := by
  refine .after leaves_front fun _ => .ite (fun _ => ?_) fun _ => .ite (fun _ => ?_) fun _ => ?_
  · refine .eat (eats_mark rfl) fun _ => .skip (leaves_optionalWord _) fun _ => ?_
    exact inside.pattern.discard.bind fun _ => .pure _
  · exact .bind (.group _ (agree_patternList inside)) fun _ => .pure _
  · refine .ite (fun _ => .bind (.discard (.group _ ?_)) fun _ => .pure _) fun _ => ?_
    · exact (agree_elementPattern inside).commaList
    · exact .after (leaves_require _) fun _ => agree_rangeWithoutStart inside

/-- A pattern agrees where the parts inside agree in front of lighter tokens. -/
theorem agree_singlePattern (inside : first.Agree second limit)
    : Agree (limit + 1) (singlePattern first) (singlePattern second) := by
  refine .after leaves_front fun _ => .ite (fun _ => agree_pathPattern inside) fun _ => ?_
  refine .ite (fun _ => .after (eats_keyword _).leaves fun _ => .pure _) fun _ => ?_
  refine .ite (fun _ => .bind (.asWritten (.eat (eats_keyword _) fun _ => ?_)) fun _ => .pure _) fun _ => ?_
  · exact inside.pattern.discard
  · refine .ite (fun _ => agree_boundPattern inside) fun _ => ?_
    exact .ite (fun _ => agree_namePattern inside) fun _ => agree_otherPattern inside

end Wiring.Source.Grammar
