import Wiring.Proofs.Source.Grammar.AgreeingExpressions
import Wiring.Source.Grammar.Language

/-! Items that are made alike of other parts read a token before any part inside. With that, the whole
grammar does not depend on its depth, if the depth suffices for the tokens.
-/

namespace Wiring.Source.Grammar

variable {limit : Nat} {first second : Nested}

-----------------------------------------------------------------------------------------
-- Functions
-----------------------------------------------------------------------------------------

/-- A receiver may have a type behind its colon. -/
theorem agree_receiver (inside : first.Agree second limit)
    : Agree (limit + 1) (receiver first) (receiver second) := by
  refine .after (leaves_optionalMark _) fun _ => .ite (fun _ => .after (leaves_sees _) fun _ => ?_) fun _ => ?_
  · refine .perhaps eats_lifetime.agree fun _ => .skip (leaves_optionalWord _) fun _ => ?_
    refine .after (eats_keyword _).leaves fun _ => .after (leaves_sees _) fun _ => ?_
    exact (leaves_require _).agree
  · refine .skip (leaves_optionalWord _) fun _ => .eat (eats_keyword _) fun _ => ?_
    refine .after (leaves_optionalMark _) fun _ => .ite (fun _ => ?_) fun _ => .pure _
    exact (inside.type true).discard

/-- The type of a parameter without a name. -/
theorem agree_namelessParameter (inside : first.Agree second limit)
    : Agree limit (namelessParameter first) (namelessParameter second) :=
  .after (leaves_print _) fun _ => (agree_writtenType inside).bind fun _ => .pure _

/-- An argument is a receiver or a parameter, behind its attributes. -/
theorem agree_argument (inside : first.Agree second limit)
    : Agree limit (argument first) (argument second) := by
  refine (agree_outerAttributes inside).lower.discard.bind fun _ => .after (leaves_optionalMark _) fun _ => ?_
  refine .ite (fun _ => .pure _) fun _ => (agree_receiver inside).lower.attempt.bind fun answer => ?_
  cases answer with
  | some _ => exact .pure _
  | none =>
      refine .after leaves_front fun _ => .ite (fun _ => ?_) fun _ => ?_
      · exact (agree_namelessParameter inside).bind fun _ => .pure _
      · refine inside.pattern.bind fun _ => .after (leaves_mark _) fun _ => ?_
        refine .after (leaves_optionalMark _) fun _ => .ite (fun _ => .pure _) fun _ => ?_
        exact (agree_writtenType inside).bind fun _ => .pure _

/-- The output of a signature stands behind its arrow. -/
theorem agree_signatureOutput (inside : first.Agree second limit)
    : Agree (limit + 1) (signatureOutput first) (signatureOutput second) :=
  .optionalMark rfl ((agree_writtenType inside).bind fun _ => .pure _) (.pure _)

/-- A signature has its keywords and its name in front of its arguments. -/
theorem agree_signature (inside : first.Agree second limit) (safe : Bool)
    : Agree (limit + 1) (signature first safe) (signature second safe) := by
  refine .skip (leaves_optionalWord _) fun _ => .after (leaves_optionalWord _) fun isAsync => ?_
  refine .after (leaves_sees _) fun _ => .choice (eats_keyword _).agree (leaves_optionalWord _).agree.discard ?_
  refine fun _ => .after leaves_convention fun _ => .after (eats_keyword _).leaves fun _ => ?_
  refine .after eats_identifier.leaves fun _ => (agree_genericParameters inside).bind fun _ => ?_
  refine .bind (.group _ (agree_argument inside).commaList) fun arguments => ?_
  cases readArguments arguments with
  | none => exact .failure
  | some found =>
      refine (agree_signatureOutput inside).bind fun _ => ?_
      exact (agree_whereClause inside).discard.bind fun _ => .pure _

/-- The body of a function is inside its braces. -/
theorem agree_functionBody (inside : first.Agree second limit)
    : Agree (limit + 1) (functionBody first) (functionBody second) :=
  .group _ ((agree_innerAttributes inside).lower.bind fun _ =>
    inside.statements.readOrKept.bind fun _ => .pure _)

/-- A function has a body or ends without one. -/
theorem agree_functionForm (inside : first.Agree second limit) (safe : Bool)
    : Agree (limit + 1) (functionForm first safe) (functionForm second safe) := by
  refine (agree_signature inside safe).bind fun _ => .after (leaves_optionalMark _) fun _ => ?_
  exact .ite (fun _ => .pure _) fun _ => (agree_functionBody inside).bind fun _ => .pure _

-----------------------------------------------------------------------------------------
-- Declarations
-----------------------------------------------------------------------------------------

/-- A visibility is words and a path. -/
theorem leaves_visibility : Leaves visibility := by
  refine leaves_of_agree fun _ => .after (leaves_optionalWord _) fun _ => .ite (fun _ => ?_) fun _ => .pure _
  refine .after leaves_front fun _ => ?_
  split
  · refine .ite (fun _ => ?_) fun _ => ?_
    · exact .ite (fun _ => .skip eats_anyGroup.leaves fun _ => .pure _) fun _ => .pure _
    · refine .ite (fun _ => .after (eats_group _ _).leaves fun _ => .pure _) fun _ => .pure _
  · exact .pure _

/-- A name or a blank is one token. -/
theorem leaves_nameOrBlank : Leaves nameOrBlank :=
  leaves_of_agree fun _ =>
    .after (leaves_sees _) fun _ => .ite (fun _ => eats_anyWord.agree) fun _ => eats_identifier.agree

/-- The tree of a `use` is made of words and marks, by induction on its bound. -/
theorem leaves_useTree (crateRoot : Bool) (fuel : Nat)
    : Leaves (useTree crateRoot fuel) := by
  refine leaves_of_agree fun _ => ?_
  induction fuel generalizing crateRoot with
  | zero => exact .failure
  | succ fuel ih =>
      refine .after leaves_front fun _ => .ite (fun _ => ?_) fun _ => ?_
      · refine .after eats_anyWord.leaves fun _ => .after (leaves_optionalMark _) fun _ => ?_
        refine .ite (fun _ => (ih false).bind fun tree? => ?_) fun _ => ?_
        · cases tree? with
          | none => exact .failure
          | some _ => exact .pure _
        · refine .after (leaves_optionalWord _) fun _ => .ite (fun _ => ?_) fun _ => .pure _
          exact .after leaves_nameOrBlank fun _ => .pure _
      · refine .after (leaves_optionalMark _) fun _ => .ite (fun _ => .pure _) fun _ => ?_
        exact .after (eats_group _ _).leaves fun _ => .ite (fun _ => .pure _) fun _ => .pure _

/-- So is the whole of it. -/
theorem leaves_useForm : Leaves useForm :=
  leaves_of_agree fun _ =>
    .after (eats_keyword _).leaves fun _ => .after (leaves_optionalMark _) fun _ => .after leaves_front fun _ =>
      .after (leaves_useTree _ _) fun _ => .after (leaves_mark _) fun _ => .pure _

/-- A macro's call keeps its arguments as they are. -/
theorem leaves_macroCall (named : Bool)
    : Leaves (macroCall named) := by
  refine leaves_of_agree fun _ => .skip leaves_plainPath fun _ => .after (leaves_mark _) fun _ => ?_
  refine .after (leaves_sees _) fun _ => .perhaps eats_anyWord.agree.discard fun _ => ?_
  exact .after eats_anyGroup.leaves fun _ => .ite (fun _ => (leaves_mark _).agree) fun _ => .pure _

/-- Named fields follow one another, by induction on their number. -/
theorem agree_namedFields (inside : first.Agree second limit) (fuel : Nat)
    : Agree (limit + 1) (namedFields first fuel) (namedFields second fuel) := by
  induction fuel with
  | zero => exact .failure
  | succ fuel ih =>
      refine .group _ (.discard (.commaList ((agree_outerAttributes inside).lower.discard.bind fun _ => ?_)))
      refine .skip leaves_visibility fun _ => .after leaves_nameOrBlank fun _ => ?_
      refine .after (leaves_mark _) fun _ => .after leaves_front fun _ => .ite (fun _ => ?_) fun _ => ?_
      · exact .asWritten (.skip eats_anyWord.leaves fun _ => ih.lower)
      · exact (inside.type true).discard

/-- They are inside braces. -/
theorem agree_fieldsInBraces (inside : first.Agree second limit)
    : Agree (limit + 1) (fieldsInBraces first) (fieldsInBraces second) :=
  .after leaves_front fun _ => agree_namedFields inside _

/-- Fields without names are inside parentheses. -/
theorem agree_fieldsInParentheses (inside : first.Agree second limit)
    : Agree (limit + 1) (fieldsInParentheses first) (fieldsInParentheses second) := by
  refine .group _ (.discard (.commaList ((agree_outerAttributes inside).lower.discard.bind fun _ => ?_)))
  exact .skip leaves_visibility fun _ => (inside.type true).discard

/-- A variant has fields, and a number behind its equals sign. -/
theorem agree_variant (inside : first.Agree second limit)
    : Agree (limit + 1) (variant first) (variant second) := by
  refine (agree_outerAttributes inside).discard.bind fun _ => ?_
  refine leaves_visibility.agree.silently.discard.bind fun _ => .skip eats_identifier.leaves fun _ => ?_
  have value
      : Agree (limit + 1)
          (do if ← optionalMark "=" then discard (first.expression true))
          (do if ← optionalMark "=" then discard (second.expression true)) :=
    .optionalMark rfl (inside.expression true).discard (.pure _)
  refine .after (leaves_sees _) fun _ => .ite (fun _ => ?_) fun _ => .after (leaves_sees _) fun _ => ?_
  · exact (agree_fieldsInBraces inside).bind fun _ => value
  · exact .ite (fun _ => (agree_fieldsInParentheses inside).bind fun _ => value) fun _ => value

/-- The body of a structure is told by its first token. -/
theorem agree_structureBody (inside : first.Agree second limit)
    : Agree (limit + 1) (structureBody first) (structureBody second) := by
  refine .after (leaves_sees _) fun _ => .ite (fun _ => ?_) fun _ => ?_
  · refine (agree_fieldsInParentheses inside).bind fun _ => ?_
    exact (agree_whereClause inside).discard.bind fun _ => (leaves_mark _).agree
  · refine (agree_whereClause inside).discard.bind fun _ => .after (leaves_sees _) fun _ => ?_
    exact .ite (fun _ => agree_fieldsInBraces inside) fun _ => (leaves_mark _).agree

/-- That of a union has named fields. -/
theorem agree_unionBody (inside : first.Agree second limit)
    : Agree (limit + 1) (unionBody first) (unionBody second) :=
  (agree_whereClause inside).discard.bind fun _ => agree_fieldsInBraces inside

/-- That of an enumeration has variants. -/
theorem agree_enumerationBody (inside : first.Agree second limit)
    : Agree (limit + 1) (enumerationBody first) (enumerationBody second) :=
  (agree_whereClause inside).discard.bind fun _ =>
    .discard (.group _ (agree_variant inside).lower.commaList)

/-- A declared type has its name and its parameters in front of its body. -/
theorem agree_typeForm (inside : first.Agree second limit) (word : String) {body other : Parser Unit}
    (bodies : Agree (limit + 1) body other)
    : Agree (limit + 1) (typeForm first word body) (typeForm second word other) := by
  refine .after (eats_keyword _).leaves fun _ => .after eats_identifier.leaves fun _ => ?_
  exact (agree_genericParameters inside).discard.bind fun _ => bodies.bind fun _ => .pure _

/-- The type of an alias stands behind its equals sign. -/
theorem agree_aliasForm (inside : first.Agree second limit) (place : WherePlace)
    : Agree (limit + 1) (aliasForm first place) (aliasForm second place) := by
  refine .eat (eats_keyword _) fun _ => .after eats_identifier.leaves fun _ => ?_
  refine (agree_genericParameters inside).lower.discard.bind fun _ => .after (leaves_sees _) fun _ => ?_
  refine (agree_parameterBounds _ (inside.bound false true)).lower.bind fun _ => ?_
  have conditions := (agree_whereClause inside).lower
  refine .choice (.pure _) conditions fun _ => .after (leaves_optionalMark _) fun _ => ?_
  refine .perhaps (inside.type true).discard fun _ => .perhaps conditions.discard fun _ => ?_
  exact .after (leaves_mark _) fun _ => .pure _

/-- So does the value of a constant. -/
theorem agree_constantForm (inside : first.Agree second limit)
    : Agree (limit + 1) (constantForm first) (constantForm second) := by
  refine .eat (eats_keyword _) fun _ => .skip leaves_nameOrBlank fun _ => ?_
  refine (agree_genericParameters inside).lower.bind fun _ => .after (leaves_mark _) fun _ => ?_
  refine (inside.type true).discard.bind fun _ => .after (leaves_optionalMark _) fun _ => ?_
  refine .perhaps (inside.expression true).discard fun _ => ?_
  exact (agree_whereClause inside).lower.bind fun _ => .after (leaves_mark _) fun _ => .pure _

/-- So does that of a static. -/
theorem agree_staticForm (inside : first.Agree second limit) (foreign : Bool)
    : Agree (limit + 1) (staticForm first foreign) (staticForm second foreign) := by
  refine .eat (eats_keyword _) fun _ => .skip (leaves_optionalWord _) fun _ => ?_
  refine .skip eats_identifier.leaves fun _ => .after (leaves_sees _) fun _ => ?_
  refine .perhapsBoth (leaves_mark _).agree (inside.type true).discard fun _ => ?_
  refine .after (leaves_optionalMark _) fun _ => .perhaps (inside.expression true).discard fun _ => ?_
  exact .after (leaves_mark _) fun _ => .pure _

-----------------------------------------------------------------------------------------
-- Members
-----------------------------------------------------------------------------------------

/-- A member of a block is told by its first token, behind its attributes. -/
theorem agree_implMember (inside : first.Agree second limit)
    : Agree (limit + 1) (implMember first) (implMember second) := by
  refine .orKept ((agree_outerAttributes inside).bind fun _ => .after leaves_visibility fun _ => ?_)
  refine .after leaves_front fun _ => .perhaps (eats_keyword _).agree fun _ => ?_
  refine .after leaves_front fun _ => .ite (fun _ => ?_) fun _ => .ite (fun _ => ?_) fun _ => ?_
  · exact (agree_functionForm inside false).bind fun _ => .pure _
  · exact (agree_constantForm inside).bind fun _ => .pure _
  · refine .ite (fun _ => (agree_aliasForm inside _).bind fun _ => .pure _) fun _ => ?_
    exact .after (leaves_require _) fun _ => .after (leaves_macroCall _) fun _ => .pure _

/-- So is that of a trait. -/
theorem agree_traitMember (inside : first.Agree second limit)
    : Agree (limit + 1) (traitMember first) (traitMember second) := by
  refine .orKept ((agree_outerAttributes inside).bind fun _ => .after leaves_visibility fun _ => ?_)
  refine .after (leaves_optionalWord _) fun _ => .after leaves_front fun _ => ?_
  refine .ite (fun _ => ?_) fun _ => .ite (fun _ => ?_) fun _ => ?_
  · exact (agree_functionForm inside false).bind fun _ => .pure _
  · exact (agree_constantForm inside).bind fun _ => .pure _
  · refine .ite (fun _ => (agree_aliasForm inside _).discard.bind fun _ => .pure _) fun _ => ?_
    exact .after (leaves_require _) fun _ => .after (leaves_macroCall _) fun _ => .pure _

/-- A variable of a foreign block. -/
theorem agree_foreignVariable (inside : first.Agree second limit)
    : Agree (limit + 1) (foreignVariable first) (foreignVariable second) := by
  refine .after leaves_front fun _ => .perhaps eats_anyWord.agree.discard fun _ => ?_
  exact (agree_staticForm inside true).bind fun _ => .pure _

/-- A member of one is told by its first token. -/
theorem agree_foreignMember (inside : first.Agree second limit)
    : Agree (limit + 1) (foreignMember first) (foreignMember second) := by
  refine .orKept ((agree_outerAttributes inside).discard.bind fun _ => .after leaves_visibility fun _ => ?_)
  refine .after leaves_front fun _ => .ite (fun _ => ?_) fun _ => .ite (fun _ => ?_) fun _ => ?_
  · exact (agree_functionForm inside true).bind fun _ => .pure _
  · exact (agree_foreignVariable inside).bind fun _ => .pure _
  · refine .ite (fun _ => (agree_aliasForm inside _).bind fun _ => .pure _) fun _ => ?_
    exact .after (leaves_require _) fun _ => .after (leaves_macroCall _) fun _ => .pure _

/-- Members are inside braces. -/
theorem agree_membersOf {α : Type} {member other : Parser α} (inside : first.Agree second limit)
    (members : Agree limit member other)
    : Agree (limit + 1) (membersOf first member) (membersOf second other) :=
  .group _ ((agree_innerAttributes inside).lower.bind fun _ => members.untilEnd.bind fun _ => .pure _)

-----------------------------------------------------------------------------------------
-- Items
-----------------------------------------------------------------------------------------

variable (attributes : List Attribute)

/-- The trait and the owner of a block stand behind `impl`. -/
theorem agree_implItem (inside : first.Agree second limit)
    : Agree (limit + 1) (implItem first attributes) (implItem second attributes) := by
  refine .after leaves_visibility fun _ => .skip (leaves_optionalWord _) fun _ => ?_
  refine .skip (leaves_optionalWord _) fun _ => .eat (eats_keyword _) fun _ => ?_
  refine .after (leaves_sees _) fun _ => .choice (agree_genericParameters inside).lower (.pure _) fun _ => ?_
  refine .after leaves_front fun _ => ?_
  refine .perhapsBoth (leaves_optionalMark _).agree.discard (eats_keyword _).agree fun _ => ?_
  refine .after leaves_front fun _ => .perhaps (leaves_mark _).agree fun _ => ?_
  refine (inside.type true).bind fun _ => .after (leaves_optionalWord _) fun _ => ?_
  refine .after (leaves_require _) fun _ => .choice (inside.type true) (.pure _) fun _ => ?_
  refine (agree_whereClause inside).lower.discard.bind fun _ => ?_
  refine (agree_membersOf inside (agree_implMember inside).lower).lower.bind fun _ => ?_
  exact .ite (fun _ => .pure _) fun _ => .pure _

/-- Bounds of a trait stand behind its colon. -/
theorem agree_supertraits (inside : first.Agree second limit)
    : Agree (limit + 1) (supertraits first) (supertraits second) := by
  refine .after (leaves_sees _) fun _ => .ite (fun _ => ?_) fun _ => .pure _
  refine .bind (.captured (.eat (eats_mark rfl) fun _ => ?_)) fun _ => (leaves_print _).agree
  exact (inside.bound false true).separated _ _

/-- A trait has its bounds in front of its members. -/
theorem agree_traitItem (inside : first.Agree second limit)
    : Agree (limit + 1) (traitItem first attributes) (traitItem second attributes) := by
  refine .skip leaves_visibility fun _ => .after (leaves_sees _) fun _ => ?_
  refine .skip (leaves_optionalWord _) fun _ => .skip (leaves_optionalWord _) fun _ => ?_
  refine .eat (eats_keyword _) fun _ => .after eats_identifier.leaves fun _ => ?_
  refine (agree_genericParameters inside).lower.discard.bind fun _ => .after (leaves_sees _) fun _ => ?_
  have conditions := (agree_whereClause inside).lower.discard
  refine .ite (fun _ => .after (leaves_mark _) fun _ => ?_) fun _ => ?_
  · refine ((inside.bound false false).separated _ _).discard.bind fun _ => conditions.bind fun _ => ?_
    exact .after (leaves_mark _) fun _ => .pure _
  · refine (agree_supertraits inside).lower.bind fun _ => conditions.bind fun _ => ?_
    refine (agree_membersOf inside (agree_traitMember inside).lower).lower.bind fun _ => ?_
    exact .pure _

/-- A foreign block has its members behind the convention. -/
theorem agree_foreignBlock (inside : first.Agree second limit)
    : Agree (limit + 1) (foreignBlock first) (foreignBlock second) := by
  refine .skip (leaves_optionalWord _) fun _ => .after (leaves_sees _) fun _ => ?_
  refine .after (leaves_require _) fun _ => .after leaves_convention fun _ => ?_
  exact (agree_membersOf inside (agree_foreignMember inside).lower).discard

/-- The import of a crate is words. -/
theorem leaves_crateImport : Leaves crateImport := by
  refine leaves_of_agree fun _ => .after (eats_keyword _).leaves fun _ => ?_
  refine .after (eats_keyword _).leaves fun _ => .after (leaves_sees _) fun _ => ?_
  refine .bind (.discard (.ite (fun _ => eats_anyWord.agree) fun _ => eats_identifier.agree)) fun _ => ?_
  refine .after (leaves_optionalWord _) fun _ => ?_
  exact .perhaps leaves_nameOrBlank.agree.discard fun _ => (leaves_mark _).agree

/-- The definition of a macro keeps its tokens as they are. -/
theorem leaves_macroDefinition : Leaves macroDefinition := by
  refine leaves_of_agree fun _ => .after (eats_keyword _).leaves fun _ => ?_
  refine .skip eats_identifier.leaves fun _ => .after (leaves_sees _) fun _ => ?_
  exact .perhaps eats_anyGroup.agree.discard fun _ => (eats_group _ _).agree

/-- The items of a module are inside its braces. -/
theorem agree_moduleItem (inside : first.Agree second limit)
    : Agree (limit + 1) (moduleItem first attributes) (moduleItem second attributes) := by
  refine .skip leaves_visibility fun _ => .skip (leaves_optionalWord _) fun _ => ?_
  refine .after (eats_keyword _).leaves fun _ => .after (leaves_sees _) fun _ => ?_
  refine .choice eats_anyWord.agree eats_identifier.agree fun _ => .after (leaves_sees _) fun _ => ?_
  refine .ite (fun _ => ?_) fun _ => .after (leaves_mark _) fun _ => .pure _
  exact (agree_membersOf inside inside.item).bind fun _ => .pure _

/-- A function as an item. -/
theorem agree_functionItem (inside : first.Agree second limit)
    : Agree (limit + 1) (functionItem first attributes) (functionItem second attributes) :=
  .skip leaves_visibility fun _ => (agree_functionForm inside false).bind fun _ => .pure _

/-- A `use` as an item. -/
theorem leaves_useItem : Leaves (useItem attributes) := by
  refine leaves_of_agree fun _ => .after leaves_visibility fun _ => .after leaves_useForm fun found => ?_
  obtain ⟨rooted, tree?⟩ := found
  cases tree? <;> exact .pure _

/-- An alias as an item. -/
theorem agree_aliasItem (inside : first.Agree second limit)
    : Agree (limit + 1) (aliasItem first attributes) (aliasItem second attributes) :=
  .skip leaves_visibility fun _ => (agree_aliasForm inside _).bind fun _ =>
    .ite (fun _ => .pure _) fun _ => .pure _

/-- A constant or a static as an item. -/
theorem agree_valueItem (inside : first.Agree second limit)
    : Agree (limit + 1) (valueItem first attributes) (valueItem second attributes) := by
  refine .skip leaves_visibility fun _ => .after (leaves_sees _) fun _ => .ite (fun _ => ?_) fun _ => ?_
  · exact (agree_staticForm inside false).bind fun _ => .pure _
  · exact (agree_constantForm inside).bind fun _ => .pure _

/-- A declared type as an item. -/
theorem agree_typeItem (inside : first.Agree second limit) (kind : TypeKind) (word : String)
    {body other : Parser Unit} (bodies : Agree (limit + 1) body other)
    : Agree (limit + 1) (typeItem first attributes kind word body)
        (typeItem second attributes kind word other) :=
  .skip leaves_visibility fun _ => (agree_typeForm inside word bodies).bind fun _ => .pure _

/-- Attributes are added without reading. -/
theorem Agree.without {parser other : Parser Unit} (agree : Agree limit parser other)
    : Agree limit (without attributes parser) (without attributes other) :=
  agree.bind fun _ => .pure _

/-- So is the answer that an item is not printed as it stands. -/
theorem Agree.always {parser other : Parser Item} (agree : Agree limit parser other)
    : Agree limit (always parser) (always other) :=
  agree.bind fun _ => .pure _

/-- Items that declare nothing are told by their first tokens. -/
theorem agree_bareItem (inside : first.Agree second limit) (visible : Bool) (tokens : Tokens)
    : Agree (limit + 1) (bareItem first attributes visible tokens)
        (bareItem second attributes visible tokens) := by
  refine .ite (fun _ => ?_) fun _ => .ite (fun _ => ?_) fun _ => .ite (fun _ => ?_) fun _ => ?_
  · exact .without _ (.skip leaves_visibility fun _ => leaves_crateImport.agree)
  · exact .without _ (agree_foreignBlock inside)
  · exact .skip leaves_visibility fun _ => .after leaves_macroDefinition fun _ => .pure _
  · exact .after (leaves_require _) fun _ => .without _ (leaves_macroCall _).agree

/-- So are those that are looked at. -/
theorem agree_itemForm (inside : first.Agree second limit) (visible : Bool) (tokens : Tokens)
    : Agree (limit + 1) (itemForm first attributes visible tokens)
        (itemForm second attributes visible tokens) := by
  refine .ite (fun _ => agree_functionItem _ inside) fun _ => ?_
  refine .ite (fun _ => (leaves_useItem _).agree) fun _ => ?_
  refine .ite (fun _ => agree_valueItem _ inside) fun _ => ?_
  refine .ite (fun _ => .always (agree_moduleItem _ inside)) fun _ => ?_
  refine .ite (fun _ => agree_aliasItem _ inside) fun _ => .ite (fun _ => ?_) fun _ => ?_
  · exact .always (agree_typeItem _ inside .struct _ (agree_structureBody inside))
  · refine .ite (fun _ => ?_) fun _ => .ite (fun _ => ?_) fun _ => ?_
    · exact .always (agree_typeItem _ inside .enumeration _ (agree_enumerationBody inside))
    · exact .always (agree_typeItem _ inside .union _ (agree_unionBody inside))
    · refine .ite (fun _ => .always (agree_traitItem _ inside)) fun _ => ?_
      refine .ite (fun _ => agree_implItem _ inside) fun _ => ?_
      exact agree_bareItem _ inside visible tokens

/-- An item agrees where the parts inside agree in front of lighter tokens. -/
theorem agree_item (inside : first.Agree second limit)
    : Agree (limit + 1) (item first) (item second) := by
  refine .orKept ((agree_outerAttributes inside).bind fun attributes => ?_)
  refine leaves_visibility.agree.discard.behind.bind fun tokens? => ?_
  cases tokens? with
  | none => exact .failure
  | some tokens => exact .after (leaves_sees _) fun _ => agree_itemForm attributes inside _ tokens

-----------------------------------------------------------------------------------------
-- The whole grammar
-----------------------------------------------------------------------------------------

section Depth

variable {depth other : Nat}

/-- One level further out, bounds agree where the tokens may be heavier. -/
theorem boundsAgree_language (inside : (language depth).Agree (language other) limit)
    : (language (depth + 1)).BoundsAgree (language (other + 1)) (limit + 1) :=
  agree_bound inside

/-- So do operands and operators. -/
theorem operandsAgree_language (inside : (language depth).Agree (language other) limit)
    : (language (depth + 1)).OperandsAgree (language (other + 1)) (limit + 1) :=
  ⟨agree_operand inside, agree_operators inside⟩

/-- Two levels further out, statements do, as an expression at their start has operands of its own. -/
theorem statementsAgree_language (inside : (language depth).Agree (language other) limit)
    (around : (language (depth + 1)).Agree (language (other + 1)) limit)
    : (language (depth + 2)).StatementsAgree (language (other + 2)) (limit + 1) :=
  ⟨agree_item around, agree_earlyExpression around (operandsAgree_language inside)⟩

/-- At one depth more than the three parts that may stand at one place, all parts agree in front of one more
token.
-/
theorem agree_language_step (inside : (language depth).Agree (language other) limit)
    (around : (language (depth + 1)).Agree (language (other + 1)) limit)
    (outside : (language (depth + 2)).Agree (language (other + 2)) limit)
    : (language (depth + 3)).Agree (language (other + 3)) (limit + 1) := by
  intro part
  cases part with
  | type plus => exact agree_typeExpr outside (boundsAgree_language around) plus
  | bound captures constants => exact agree_bound outside captures constants
  | expression braces => exact agree_expression (operandsAgree_language around) braces
  | operand braces enclosed => exact agree_operand outside braces enclosed
  | operators left braces least => exact agree_operators outside left braces least
  | earlyExpression attributes =>
      exact agree_earlyExpression outside (operandsAgree_language around) attributes
  | statements => exact agree_statements outside (statementsAgree_language inside around)
  | pattern => exact agree_singlePattern outside
  | item => exact agree_item outside

/-- The grammar does not depend on its depth, if that suffices for the tokens. The induction is on what the
tokens weigh: each token pays for the parts that may follow one another in front of it.
-/
theorem agree_language (limit : Nat) (deep : 16 * limit ≤ depth) (deepToo : 16 * limit ≤ other)
    : (language depth).Agree (language other) limit := by
  induction limit generalizing depth other with
  | zero => exact fun _ _ light => absurd light (Nat.not_lt_zero _)
  | succ limit ih =>
      obtain ⟨inner, rfl⟩ := Nat.exists_eq_add_of_le' (show 3 ≤ depth by omega)
      obtain ⟨innerToo, rfl⟩ := Nat.exists_eq_add_of_le' (show 3 ≤ other by omega)
      refine agree_language_step (ih ?_ ?_) (ih ?_ ?_) (ih ?_ ?_) <;> omega

/-- The grammar leaves the last ones of its tokens at any depth, by induction on the depth and by the
cases of the part.
-/
theorem agree_language_self (depth limit : Nat)
    : (language depth).Agree (language depth) limit := by
  induction depth generalizing limit with
  | zero => exact fun _ => .failure
  | succ depth ih =>
      intro part
      have inside := ih limit
      cases part with
      | type plus => exact (agree_typeExpr inside (ih (limit + 1)).bound plus).lower
      | bound captures constants => exact (agree_bound inside captures constants).lower
      | expression braces => exact agree_expression ⟨inside.operand, inside.operators⟩ braces
      | operand braces enclosed => exact (agree_operand inside braces enclosed).lower
      | operators left braces least => exact (agree_operators inside left braces least).lower
      | earlyExpression attributes =>
          have operands := ih (limit + 1)
          exact (agree_earlyExpression inside ⟨operands.operand, operands.operators⟩ attributes).lower
      | statements =>
          have starts := ih (limit + 1)
          exact (agree_statements inside ⟨starts.item, starts.earlyExpression⟩).lower
      | pattern => exact (agree_singlePattern inside).lower
      | item => exact (agree_item inside).lower

end Depth

end Wiring.Source.Grammar
