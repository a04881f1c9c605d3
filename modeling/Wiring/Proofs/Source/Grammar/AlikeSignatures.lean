import Wiring.Proofs.Source.Grammar.AgreeingItems
import Wiring.Proofs.Source.Grammar.AlikeParsers

/-! The signature of a function is read alike whatever stands behind the group that is its body. All that
stands outside of groups in it are paths, types, bounds, and generic parameters, and of the parts inside these
need to be alike only.
-/

namespace Wiring.Source.Grammar

/-- Whether the types and bounds of a grammar are read alike in front of the endings. -/
structure Nested.Alike (nested : Nested) (endings : Endings) : Prop where
  agree : ∀ limit, nested.Agree nested limit
  type : ∀ limit plus, Grammar.Alike endings limit (nested.type plus) (nested.type plus)
  bound : ∀ limit captures constants,
    Grammar.Alike endings limit (nested.bound captures constants) (nested.bound captures constants)

variable {endings : Endings} {limit : Nat} {nested : Nested}

-----------------------------------------------------------------------------------------
-- Attributes
-----------------------------------------------------------------------------------------

/-- An attribute is a mark and a group, which is read to its own end. -/
theorem alike_outerAttribute : Alike endings limit (outerAttribute nested) (outerAttribute nested) :=
  .bind (.mark "#") fun _ => (takes_group _ _).alike

/-- It reads its mark at least. -/
theorem eats_outerAttribute : Eats (outerAttribute nested) :=
  (eats_mark rfl).followed fun _ => (eats_group _ _).leaves

/-- Attributes are read as long as marks follow, and neither ending starts with one. -/
theorem alike_outerAttributes : Alike endings limit (outerAttributes nested) (outerAttributes nested) :=
  .manyWhile (blind_isMark "#") eats_outerAttribute fun _ => alike_outerAttribute

/-- A segment is tested by its word. -/
theorem blind_isSegment : Blind endings isSegment :=
  blind_isName.or (blind_isOneOf pathWords)

-----------------------------------------------------------------------------------------
-- Paths
-----------------------------------------------------------------------------------------

/-- A constant is a literal, a name or a group. -/
theorem alike_constantArgument
    : Alike endings limit (constantArgument nested) (constantArgument nested) := by
  refine .bind (.look blind_isLiteral) fun _ => .ite (fun _ => takes_literal.alike) fun _ => ?_
  refine .bind (.look blind_isName) fun _ => .ite (fun _ => takes_identifier.alike.discard) fun _ => ?_
  exact (takes_group _ _).alike

/-- The value of an argument is a constant, or a type inside. -/
theorem alike_argumentValue (inside : nested.Alike endings)
    : Alike endings limit (argumentValue nested) (argumentValue nested) := by
  refine .bind (.look blind_isLiteral) fun _ => .bind (.look (blind_isGroup .brace)) fun _ => ?_
  exact .ite (fun _ => alike_constantArgument) fun _ => (inside.type _ true).discard

/-- The end of an argument is tested by its mark. -/
theorem blind_endsArgument : Blind endings endsArgument :=
  (blind_isMark ",").or (blind_isMark ">")

/-- Which kind an argument is, tests on its first tokens tell, all of them blind. -/
theorem alike_genericArgument (inside : nested.Alike endings)
    : Alike endings limit (genericArgument nested) (genericArgument nested) := by
  refine .front (leaves_of_agree fun limit => agree_genericArgument (inside.agree limit)) fun _ => ?_
  refine .when (.behindLifetime (blind_isMark "+").not) ?_ ?_
  · exact takes_lifetime.alike.bind fun _ => .pure _
  · refine .when (blind_isLiteral.or (blind_isGroup .brace)) ?_ ?_
    · exact alike_constantArgument.bind fun _ => .pure _
    · refine (inside.type _ true).bind fun _ => .ite (fun _ => .pure _) fun _ => ?_
      refine .bind (.optionalMark "=") fun _ => .ite (fun _ => ?_) fun _ => ?_
      · exact (alike_argumentValue inside).bind fun _ => .pure _
      · refine .bind (.optionalMark ":") fun _ => .ite (fun _ => ?_) fun _ => .pure _
        have bounds := fun limit => inside.bound limit false true
        exact (Alike.joined rfl blind_endsArgument bounds).discard.bind fun _ => .pure _

/-- Arguments are read up to their closing mark, which stands in front of the endings. -/
theorem alike_genericArguments (inside : nested.Alike endings)
    : Alike endings limit (genericArguments nested) (genericArguments nested) := by
  refine (Alike.optionalMark "::").discard.bind fun _ => .bind (.mark "<") fun _ => ?_
  have arguments : ∀ limit, Alike endings limit (captured (genericArgument nested)) _ :=
    fun _ => (alike_genericArgument inside).captured
  refine (Alike.separated rfl (blind_isMark ">") arguments).silently.bind fun _ => ?_
  exact .bind (.print _) fun _ => .bind (.mark ">") fun _ => .pure _

/-- The arguments of a function trait are tested by a group, which the ending may be; it is the same
one on both sides.
-/
theorem blind_startsCall : Blind endings startsCall :=
  (blind_isGroup .paren).or (.behindMark "::" rfl (blind_isGroup .paren))

/-- The start of arguments is tested by marks. -/
theorem blind_startsArguments (place : PathPlace)
    : Blind endings (startsArguments place) := by
  have angle : Blind endings fun tokens =>
      decide (place ≠ .expression) && isMark "<" tokens && !isMark "<=" tokens && !isMark "<<=" tokens :=
    (((Blind.const _).and (blind_isMark "<")).and (blind_isMark "<=").not).and (blind_isMark "<<=").not
  exact angle.or (.behindMark "::" rfl (blind_isMark "<"))

/-- A segment is a word, and arguments behind it. -/
theorem alike_segment (inside : nested.Alike endings) (place : PathPlace)
    : Alike endings limit (segment nested place) (segment nested place) := by
  refine .bind (.look (blind_isOneOf _)) fun _ => .ite (fun _ => ?_) fun _ => ?_
  · exact takes_anyWord.alike.bind fun _ => .pure _
  · refine .bind (.look (blind_isWord "Self")) fun _ => ?_
    refine .choice takes_anyWord.alike takes_identifier.alike fun _ => ?_
    refine .bind (.look (blind_startsArguments place)) fun _ => .ite (fun _ => ?_) fun _ => .pure _
    refine (alike_genericArguments inside).captured.bind fun _ => .bind (.look blind_startsCall) fun _ => ?_
    exact .bind (.print _) fun _ => .pure _

/-- Segments behind the first one of a path. -/
theorem alike_segments (inside : nested.Alike endings) (place : PathPlace) {test : Tokens → Bool}
    (blind : Blind endings test)
    : Alike endings limit (manyWhile test do mark "::"; segment nested place)
        (manyWhile test do mark "::"; segment nested place) := by
  have step : ∀ limit, Alike endings limit (segment nested place) _ := fun _ => alike_segment inside place
  refine .manyWhile blind ((eats_mark rfl).followed fun _ => (step 0).leaves) fun limit => ?_
  exact .bind (.mark "::") fun _ => step limit

/-- A path goes on as long as marks do. -/
theorem alike_path (inside : nested.Alike endings) (place : PathPlace)
    : Alike endings limit (path nested place) (path nested place) := by
  refine .bind (.optionalMark "::") fun _ => (alike_segment inside place).bind fun _ => ?_
  have separator : Blind endings fun tokens => isMark "::" tokens && !isGroup .paren (tokens.drop 2) :=
    .behindMark "::" rfl (blind_isGroup .paren).not
  exact (alike_segments inside place separator).bind fun _ => .pure _

/-- A member path starts with a type inside. -/
theorem alike_memberPath (inside : nested.Alike endings) (place : PathPlace)
    : Alike endings limit (memberPath nested place) (memberPath nested place) := by
  refine .bind (.mark "<") fun _ => (inside.type _ true).discard.bind fun _ => ?_
  refine .bind (.optionalWord "as") fun _ => .perhaps (alike_path inside .type).discard fun _ => ?_
  refine .bind (.mark ">") fun _ => .bind (.mark "::") fun _ => (alike_segment inside place).bind fun _ => ?_
  exact (alike_segments inside place (blind_isMark "::")).bind fun _ => .pure _

/-- Which of the two a path is, its first mark tells. -/
theorem alike_anyPath (inside : nested.Alike endings) (place : PathPlace)
    : Alike endings limit (anyPath nested place) (anyPath nested place) := by
  refine .bind (.look (blind_isMark "<")) fun _ => .ite (fun _ => ?_) fun _ => ?_
  · exact (alike_memberPath inside place).bind fun _ => .pure _
  · exact (alike_path inside place).bind fun _ => .pure _

/-- A returned type stands behind its arrow. -/
theorem alike_returnType (inside : nested.Alike endings) (plus : Bool)
    : Alike endings limit (returnType nested plus) (returnType nested plus) :=
  .bind (.optionalMark "->") fun _ => .ite (fun _ => (inside.type _ plus).discard) fun _ => .pure _

/-- The arguments of a function trait are a group. -/
theorem alike_callArguments (inside : nested.Alike endings)
    : Alike endings limit (callArguments nested) (callArguments nested) :=
  (takes_group _ _).alike.discard.bind fun _ => alike_returnType inside false

/-- The path of a trait may have them behind it. -/
theorem alike_traitPath (inside : nested.Alike endings)
    : Alike endings limit (traitPath nested) (traitPath nested) := by
  refine (alike_path inside .trait).bind fun _ => .bind (.look blind_startsCall) fun _ => ?_
  refine .ite (fun _ => ?_) fun _ => .pure _
  exact (Alike.optionalMark "::").silently.discard.bind fun _ => alike_callArguments inside

-----------------------------------------------------------------------------------------
-- Bounds and generic parameters
-----------------------------------------------------------------------------------------

/-- Bounds of a parameter are joined by marks. -/
theorem alike_parameterBounds {α : Type} {ends : Tokens → Bool} {bound : Parser α}
    (blind : Blind endings ends) (alike : ∀ limit, Alike endings limit bound bound)
    : Alike endings limit (parameterBounds ends bound) (parameterBounds ends bound) := by
  refine .bind (.look (blind_isMark ":")) fun _ => .ite (fun _ => ?_) fun _ => .pure _
  have behind : Alike endings limit (do mark ":"; joined ends "+" bound) (do mark ":"; joined ends "+" bound) :=
    .bind (.mark ":") fun _ => .joined rfl blind alike
  exact behind.captured.bind fun _ => .print _

/-- The end of a parameter is tested by its mark. -/
theorem blind_endsTypeParameter : Blind endings endsTypeParameter :=
  blind_endsArgument.or (blind_isMark "=")

/-- Which kind a parameter is, its first tokens tell. -/
theorem alike_genericParameter (inside : nested.Alike endings) (blank : Bool)
    : Alike endings limit (genericParameter nested blank) (genericParameter nested blank) := by
  refine alike_outerAttributes.discard.bind fun _ => .bind (.look blind_isLifetime) fun _ => ?_
  refine .ite (fun _ => takes_lifetime.alike.bind fun _ => ?_) fun _ => ?_
  · refine .bind (alike_parameterBounds blind_endsArgument fun _ => ?_) fun _ => .pure _
    exact takes_lifetime.alike
  refine .bind (.optionalWord "const") fun _ => .ite (fun _ => ?_) fun _ => ?_
  · refine takes_identifier.alike.discard.bind fun _ => .bind (.mark ":") fun _ => ?_
    refine (inside.type _ true).discard.bind fun _ => .bind (.optionalMark "=") fun _ => ?_
    exact .perhaps alike_constantArgument fun _ => .pure _
  · refine .bind (.look (blind_isWord "_")) fun _ => .ite (fun _ => ?_) fun _ => ?_
    · exact takes_anyWord.alike.discard.bind fun _ => .pure _
    · refine takes_identifier.alike.discard.bind fun _ => ?_
      have bounds := fun limit => inside.bound limit false true
      refine (alike_parameterBounds blind_endsTypeParameter bounds).bind fun _ => ?_
      refine .bind (.optionalMark "=") fun _ => .ite (fun _ => ?_) fun _ => .pure _
      exact (inside.type _ true).discard.bind fun _ => .pure _

/-- Bound parameters are read up to their closing mark. -/
theorem alike_boundParameters (inside : nested.Alike endings)
    : Alike endings limit (boundParameters nested) (boundParameters nested) := by
  refine (takes_keyword _).alike.bind fun _ => .bind (.mark "<") fun _ => ?_
  have parameters : ∀ limit, Alike endings limit (genericParameter nested false) _ :=
    fun _ => alike_genericParameter inside false
  exact (Alike.separated rfl (blind_isMark ">") parameters).discard.bind fun _ => .mark ">"

/-- So are generic parameters. -/
theorem alike_bracketedParameters (inside : nested.Alike endings)
    : Alike endings limit (bracketedParameters nested) (bracketedParameters nested) := by
  refine .bind (.silently (.bind (.mark "<") fun _ => ?_)) fun _ => ?_
  · have parameters : ∀ limit, Alike endings limit (captured (genericParameter nested true)) _ :=
      fun _ => (alike_genericParameter inside true).captured
    refine .bind (.separated rfl (blind_isMark ">") parameters) fun _ => ?_
    exact .bind (.mark ">") fun _ => .pure _
  · exact .ite (fun _ => .pure _) fun _ => .bind (.print _) fun _ => .pure _

/-- They are there if an angle bracket is. -/
theorem alike_genericParameters (inside : nested.Alike endings)
    : Alike endings limit (genericParameters nested) (genericParameters nested) :=
  .bind (.look (blind_isMark "<")) fun _ =>
    .ite (fun _ => alike_bracketedParameters inside) fun _ => .pure _

/-- The end of a `where` is tested by one token. -/
theorem blind_endsWhere : Blind endings endsWhere :=
  ((((blind_isEmpty.or (blind_isGroup .brace)).or (blind_isMark ",")).or (blind_isMark ";")).or
    blind_isLoneColon).or (blind_isMark "=")

/-- So is that of the lifetimes that another outlives. -/
theorem blind_endsOutlived : Blind endings endsOutlived :=
  blind_endsWhere.or (blind_isMark ":")

/-- A predicate is one of a lifetime or of a type inside. What stands first tells which of them. -/
theorem alike_wherePredicate (inside : nested.Alike endings)
    : Alike endings limit (wherePredicate nested) (wherePredicate nested) := by
  refine .front (leaves_of_agree fun limit => agree_wherePredicate (inside.agree limit)) fun _ => ?_
  refine .when (.behindLifetime (blind_isMark ":")) ?_ ?_
  · refine takes_lifetime.alike.bind fun _ => .bind (.mark ":") fun _ => ?_
    exact .discard (.joined rfl blind_endsOutlived fun _ => takes_lifetime.alike)
  · have rest (limit : Nat)
        : Alike endings limit
            (do
              discard (nested.type true)
              mark ":"
              discard (joined endsWhere "+" (nested.bound false true)))
            (do
              discard (nested.type true)
              mark ":"
              discard (joined endsWhere "+" (nested.bound false true))) := by
      refine (inside.type _ true).discard.bind fun _ => .bind (.mark ":") fun _ => ?_
      exact .discard (.joined rfl blind_endsWhere fun limit => inside.bound limit false true)
    refine .when (blind_isWord "for") ?_ (rest _)
    exact (alike_boundParameters inside).bind fun _ => rest _

/-- A lifetime or a name, and what stands behind it. -/
theorem blind_behindParameter {look : Tokens → Bool} (blind : Blind endings look)
    : Blind endings fun tokens => (isLifetime tokens || isName tokens) && look (behindOne tokens) := by
  have cases : (fun tokens => (isLifetime tokens || isName tokens) && look (behindOne tokens))
      = fun tokens => isLifetime tokens && look (tokens.drop 2) || isName tokens && look tokens.tail := by
    funext tokens
    unfold behindOne
    cases lifetime : isLifetime tokens with
    | false => simp
    | true =>
        have nameless : isName tokens = false := by
          unfold isLifetime at lifetime
          split at lifetime
          · rfl
          · contradiction
        simp [nameless]
  rw [cases]
  exact (Blind.behindLifetime blind).or (Blind.behindName blind)

/-- The start of bound parameters is tested by marks, and by what stands behind them. -/
theorem blind_startsParameters : Blind endings startsParameters := by
  have ends : Blind endings fun tokens =>
      isMark ">" tokens || isMark "," tokens || isLoneColon tokens || isMark "=" tokens :=
    (((blind_isMark ">").or (blind_isMark ",")).or blind_isLoneColon).or (blind_isMark "=")
  have second :=
    (((blind_isMark ">").or (blind_isMark "#")).or (blind_behindParameter ends)).or (blind_isWord "const")
  have whole := Blind.behindMark "<" (show _ = 1 from rfl) second
  simp only [List.drop_one] at whole
  exact whole

/-- Predicates go on as long as commas do. -/
theorem alike_whereClause (inside : nested.Alike endings)
    : Alike endings limit (whereClause nested) (whereClause nested) := by
  refine .bind (.look (blind_isWord "where")) fun _ => .ite (fun _ => ?_) fun _ => .pure _
  refine .bind (.captured ((takes_keyword _).alike.bind fun _ => ?_)) fun _ => ?_
  · refine .bind (.look blind_startsParameters) fun _ => .bind (.require _) fun _ => ?_
    exact .joined rfl blind_endsWhere fun _ => alike_wherePredicate inside
  · exact .bind (.print _) fun _ => .pure _

/-- A captured name is one token or two. -/
theorem alike_capturedName
    : Alike endings limit capturedNames.capturedName capturedNames.capturedName := by
  refine .bind (.look blind_isLifetime) fun _ => .ite (fun _ => ?_) fun _ => ?_
  · exact takes_lifetime.alike.bind fun _ => .pure _
  · refine .bind (.look (blind_isWord "Self")) fun _ => ?_
    refine .bind (.discard (.ite (fun _ => ?_) fun _ => ?_)) fun _ => .pure _
    · exact takes_anyWord.alike
    · exact takes_identifier.alike

/-- Captured names are read up to their closing mark. -/
theorem alike_capturedNames : Alike endings limit capturedNames capturedNames := by
  refine (takes_keyword _).alike.bind fun _ => .bind (.mark "<") fun _ => ?_
  have names : ∀ limit, Alike endings limit (captured capturedNames.capturedName) _ :=
    fun _ => alike_capturedName.captured
  refine (Alike.separated rfl (blind_isMark ">") names).silently.bind fun _ => ?_
  exact .bind (.print _) fun _ => .mark ">"

/-- The mark for constants is a group or a word. -/
theorem alike_constantMark : Alike endings limit constantMark constantMark := by
  refine .bind (.look (blind_isGroup .bracket)) fun _ => .ite (fun _ => ?_) fun _ => .optionalWord _
  exact (takes_group _ _).alike.bind fun _ => .pure _

/-- A bound is the path of a trait, behind words and marks. -/
theorem alike_traitBound (inside : nested.Alike endings) (constants : Bool)
    : Alike endings limit (traitBound nested constants) (traitBound nested constants) := by
  refine .bind (.look (blind_isWord "for")) fun _ => .perhaps (alike_boundParameters inside) fun _ => ?_
  refine alike_constantMark.bind fun _ => .bind (.require _) fun _ => .bind (.optionalMark "?") fun _ => ?_
  exact .bind (.require _) fun _ => (alike_traitPath inside).bind fun _ => .pure _

/-- In parentheses it is a group. -/
theorem alike_enclosedTraitBound (inside : nested.Alike endings) (constants : Bool)
    : Alike endings limit (enclosedTraitBound nested constants) (enclosedTraitBound nested constants) := by
  refine .bind (.look (blind_isGroup .paren)) fun _ => .ite (fun _ => (takes_group _ _).alike) fun _ => ?_
  exact (alike_traitBound inside constants).captured.bind fun _ => .bind (.print _) fun _ => .pure _

/-- Which kind a bound is, its first tokens tell. -/
theorem alike_bound (inside : nested.Alike endings) (captures constants : Bool)
    : Alike endings limit (bound nested captures constants) (bound nested captures constants) := by
  refine .bind (.look blind_isLifetime) fun _ => .ite (fun _ => ?_) fun _ => ?_
  · exact takes_lifetime.alike.bind fun _ => .pure _
  · refine .bind (.look (blind_isWord "use")) fun _ => .ite (fun _ => ?_) fun _ => ?_
    · exact .bind (.require _) fun _ => alike_capturedNames.bind fun _ => .pure _
    · exact (alike_enclosedTraitBound inside constants).asWrittenIf _

-----------------------------------------------------------------------------------------
-- Types
-----------------------------------------------------------------------------------------

/-- The start of a bound is tested by one token. -/
theorem blind_startsBound (constants : Bool)
    : Blind endings (startsBound constants) :=
  ((((blind_isAnyWord.or (blind_isMark "::")).or (blind_isMark "?")).or blind_isLifetime).or
    (blind_isGroup .paren)).or ((Blind.const _).and (blind_isGroup .bracket))

/-- Bounds, however many there may be. The induction is on how many tokens stand before the ending. -/
theorem alike_boundSum (inside : nested.Alike endings) (plus captures constants : Bool) {fuel more : Nat}
    (enough : limit ≤ fuel) (enoughToo : limit ≤ more)
    : Alike endings limit (boundSum nested plus captures constants fuel)
        (boundSum nested plus captures constants more) := by
  induction limit generalizing fuel more with
  | zero => exact .of_leaves (leaves_of_agree fun limit => agree_boundSum (inside.agree limit).bound _ _ _ _)
  | succ limit ih =>
      obtain ⟨fuel, rfl⟩ := Nat.exists_eq_add_of_le' (Nat.le_of_add_left_le enough)
      obtain ⟨more, rfl⟩ := Nat.exists_eq_add_of_le' (Nat.le_of_add_left_le enoughToo)
      refine (inside.bound _ captures constants).bind fun _ => .bind (.look (blind_isMark "+")) fun _ => ?_
      refine .ite (fun _ => .eat (.mark "+") (eats_mark rfl) fun _ => ?_) fun _ => .pure _
      refine .bind (.look (blind_startsBound constants)) fun _ => .ite (fun _ => ?_) fun _ => .pure _
      exact (ih (Nat.le_of_succ_le_succ enough) (Nat.le_of_succ_le_succ enoughToo)).bind fun _ => .pure _

/-- Bounds go on as long as plus marks do: on either side, the tokens in front of the ending bound
their number.
-/
theorem alike_traitSum (inside : nested.Alike endings) (plus captures constants : Bool)
    : Alike endings limit (traitSum nested plus captures constants)
        (traitSum nested plus captures constants) := by
  refine .front (leaves_of_agree fun limit => agree_traitSum (inside.agree limit).bound _ _ _) fun _ => ?_
  refine (alike_boundSum inside plus captures constants ?_ ?_).bind fun _ => .require _
  · exact Alike.length_le ..
  · exact Alike.length_le ..

/-- So do further bounds. -/
theorem alike_furtherBounds (inside : nested.Alike endings)
    : Alike endings limit (furtherBounds nested) (furtherBounds nested) := by
  have step (limit : Nat)
      : Alike endings limit
          (do mark "+"; if ← sees (startsBound false) then discard (nested.bound false false))
          (do mark "+"; if ← sees (startsBound false) then discard (nested.bound false false)) := by
    refine .bind (.mark "+") fun _ => .bind (.look (blind_startsBound false)) fun _ => ?_
    exact .ite (fun _ => (inside.bound _ false false).discard) fun _ => .pure _
  refine .discard (.manyWhile (blind_isMark "+") ((eats_mark rfl).followed fun _ => ?_) step)
  refine leaves_of_agree fun limit => .after (leaves_sees _) fun _ => ?_
  exact .ite (fun _ => ((inside.agree limit).bound false false).discard) fun _ => .pure _

/-- The same where only bounds may follow. -/
theorem alike_strictBounds (inside : nested.Alike endings)
    : Alike endings limit (strictBounds nested) (strictBounds nested) := by
  have step := fun limit => (inside.bound limit false false).discard
  refine .discard (.manyWhile (blind_isMark "+") ((eats_mark rfl).followed fun _ => (step 0).leaves) ?_)
  exact fun limit => .bind (.mark "+") fun _ => step limit

/-- Whether bounds follow is told by one mark. -/
theorem alike_traitBehind {bounds : Parser Unit} (alike : Alike endings limit bounds bounds)
    (tokens : Tokens)
    : Alike endings limit (traitBehind tokens bounds) (traitBehind tokens bounds) :=
  .bind (.look (blind_isMark "+")) fun _ =>
    .ite (fun _ => alike.bind fun _ => .pure _) fun _ => .pure _

/-- What may follow a path is told by one mark as well. -/
theorem alike_pathType (inside : nested.Alike endings) (plus : Bool) (binder : Tokens)
    : Alike endings limit (pathType nested plus binder) (pathType nested plus binder) := by
  refine (alike_anyPath inside .type).captured.bind fun ((_, _), _) => .ite (fun _ => ?_) fun _ => ?_
  · exact .bind (.print _) fun _ => .pure _
  · refine .bind (.look blind_isCallMark) fun _ => .ite (fun _ => ?_) fun _ => ?_
    · refine .bind (.print _) fun _ => .bind (.mark "!") fun _ => ?_
      exact takes_anyGroup.alike.discard.bind fun _ => .pure _
    · refine .bind (.print _) fun _ => .bind (.look (blind_isMark "+")) fun _ => ?_
      exact .ite (fun _ => (alike_furtherBounds inside).bind fun _ => .pure _) fun _ => .pure _

/-- A calling convention is words and a text. -/
theorem alike_convention : Alike endings limit convention convention := by
  refine .bind (.optionalWord "extern") fun _ => .ite (fun _ => ?_) fun _ => .pure _
  exact .bind (.look blind_isText) fun _ => .ite (fun _ => takes_literal.alike) fun _ => .pure _

/-- The arguments of a function pointer are a group. -/
theorem alike_functionPointer (inside : nested.Alike endings)
    : Alike endings limit (functionPointer nested) (functionPointer nested) := by
  refine (Alike.optionalWord _).discard.bind fun _ => alike_convention.bind fun _ => ?_
  refine (takes_keyword _).alike.bind fun _ => (takes_group _ _).alike.bind fun _ => ?_
  exact alike_returnType inside false

/-- Behind bound parameters there is a function pointer or a path. -/
theorem alike_quantifiedType (inside : nested.Alike endings) (plus : Bool)
    : Alike endings limit (quantifiedType nested plus) (quantifiedType nested plus) := by
  refine (alike_boundParameters inside).captured.bind fun (_, binder) => ?_
  refine .bind (.look (blind_isOneOf _)) fun _ => .ite (fun _ => .bind (.print _) fun _ => ?_) fun _ => ?_
  · exact (alike_functionPointer inside).bind fun _ => .pure _
  · refine .bind (.look blind_isSegment) fun _ => .bind (.require _) fun _ => ?_
    exact alike_pathType inside plus binder

/-- A built-in type is words and a group. -/
theorem alike_builtinType : Alike endings limit builtinType builtinType := by
  refine .asWritten ((takes_keyword _).alike.bind fun _ => .bind (.mark "#") fun _ => ?_)
  exact takes_identifier.alike.discard.bind fun _ => (takes_group _ _).alike

/-- A tuple is a group, behind which further bounds may stand. -/
theorem alike_tupleType (inside : nested.Alike endings) (plus : Bool)
    : Alike endings limit (tupleType nested plus) (tupleType nested plus) := by
  have bounds (tokens : Tokens)
      : Alike endings limit
          (do print tokens; strictBounds nested; return TypeForm.other)
          (do print tokens; strictBounds nested; return TypeForm.other) :=
    .bind (.print tokens) fun _ => (alike_strictBounds inside).bind fun _ => .pure _
  refine (takes_group _ _).alike.captured.bind fun (only?, printed) => ?_
  refine .bind (.look (blind_isMark "+")) fun _ => .ite (fun _ => ?_) fun _ => ?_
  · split
    · exact bounds printed
    · exact bounds _
    · exact .bind (.print _) fun _ => .pure _
  · exact .bind (.print _) fun _ => .pure _

/-- Which kind of parentheses these are, the tokens inside tell, which are the same on both sides. -/
theorem alike_parenType (inside : nested.Alike endings) (plus : Bool) (inner : Tokens)
    : Alike endings limit (parenType nested plus inner) (parenType nested plus inner) := by
  refine .ite (fun _ => ?_) fun _ => .ite (fun _ => ?_) fun _ => .ite (fun _ => ?_) fun _ => ?_
  · exact (takes_group _ _).alike.bind fun _ => .pure _
  · exact (takes_group _ _).alike.bind fun _ => .pure _
  · exact (takes_group _ _).alike.bind fun _ => alike_traitBehind (alike_strictBounds inside) _
  · exact alike_tupleType inside plus

/-- The bounds of an object stand behind `dyn`. -/
theorem alike_objectType (inside : nested.Alike endings) (plus : Bool)
    : Alike endings limit (objectType nested plus) (objectType nested plus) := by
  refine .discard (.asWrittenIf _ ((takes_keyword _).alike.bind fun _ => .bind (.optionalMark "*") fun _ => ?_))
  exact (alike_traitSum inside plus false false).bind fun _ => .pure _

/-- The type of a pointer is one inside. -/
theorem alike_pointerType (inside : nested.Alike endings)
    : Alike endings limit (pointerType nested) (pointerType nested) := by
  refine .bind (.mark "*") fun _ => .bind (.optionalWord "mut") fun _ => ?_
  exact .perhaps (takes_keyword _).alike fun _ => (inside.type _ false).discard

/-- So is that of a reference. -/
theorem alike_referenceType (inside : nested.Alike endings)
    : Alike endings limit (referenceType nested) (referenceType nested) := by
  refine .bind (.mark "&") fun _ => .bind (.look blind_isLifetime) fun _ => ?_
  refine .perhaps takes_lifetime.alike fun _ => (Alike.optionalWord "mut").discard.bind fun _ => ?_
  exact (inside.type _ false).discard

/-- A type that starts with a keyword is told by it. -/
theorem alike_keywordType (inside : nested.Alike endings) (plus : Bool)
    : Alike endings limit (keywordType nested plus) (keywordType nested plus) := by
  have leaves : Leaves (keywordType nested plus) :=
    leaves_of_agree fun limit =>
      (agree_keywordType (inside.agree limit) (inside.agree (limit + 1)).bound plus).lower
  refine .front leaves fun _ => .when (blind_isOneOf _) (alike_functionPointer inside) ?_
  refine .when (blind_isWord "dyn") (alike_objectType inside plus) ?_
  refine .when (blind_isMark "*") (alike_pointerType inside) ?_
  refine .when (blind_isMark "&") (alike_referenceType inside) ?_
  refine .when (blind_isMark "!") (.mark "!") (.when (blind_isWord "impl") ?_ ?_)
  · exact (takes_keyword _).alike.bind fun _ => alike_traitSum inside plus true true
  · refine .when (blind_isWord "_") (takes_keyword _).alike (.when blind_isLifetime ?_ .failure)
    exact alike_traitSum inside true false false

/-- A type is read alike where the types and bounds inside are. What stands first tells which form it
has; of groups in front the endings may be one.
-/
theorem alike_typeExpr (inside : nested.Alike endings) (plus : Bool)
    : Alike endings limit (typeExpr nested plus) (typeExpr nested plus) := by
  have leaves : Leaves (typeExpr nested plus) :=
    leaves_of_agree fun limit =>
      (agree_typeExpr (inside.agree limit) (inside.agree (limit + 1)).bound plus).lower
  -- a type that does not start with a group
  have ungrouped (read : Tokens) (limit : Nat)
      : Alike endings limit
          (if isWord "for" (read ++ endings.here) then quantifiedType nested plus
          else if isWord "builtin" (read ++ endings.here) && isMark "#" (read ++ endings.here).tail then do
            builtinType
            return .other
          else if startsPath (read ++ endings.here) then pathType nested plus []
          else do
            keywordType nested plus
            return .other)
          (if isWord "for" (read ++ endings.there) then quantifiedType nested plus
          else if isWord "builtin" (read ++ endings.there) && isMark "#" (read ++ endings.there).tail then do
            builtinType
            return .other
          else if startsPath (read ++ endings.there) then pathType nested plus []
          else do
            keywordType nested plus
            return .other) := by
    refine .when (blind_isWord "for") (alike_quantifiedType inside plus) ?_
    refine .when (.behindWord "builtin" (blind_isMark "#")) (alike_builtinType.bind fun _ => .pure _) ?_
    refine .when blind_startsPath (alike_pathType inside plus []) ?_
    exact (alike_keywordType inside plus).bind fun _ => .pure _
  have sequence : ∀ limit, Alike endings limit (do sequenceType nested; return TypeForm.other) _ :=
    fun _ => (takes_group _ _).alike.bind fun _ => .pure _
  refine .front leaves fun read => ?_
  cases read with
  | nil =>
      obtain ⟨delimiter, inner, behind, elsewhere⟩ := endings
      cases delimiter with
      | paren => exact alike_parenType inside plus inner
      | bracket => exact sequence _
      | brace => exact ungrouped [] _
  | cons token read =>
      cases token with
      | group delimiter inner =>
          cases delimiter with
          | paren => exact alike_parenType inside plus inner
          | bracket => exact sequence _
          | brace => exact ungrouped (.group .brace inner :: read) _
      | word text line => exact ungrouped (.word text line :: read) _
      | mark char joint => exact ungrouped (.mark char joint :: read) _
      | literal text => exact ungrouped (.literal text :: read) _

/-- A written type is printed from what it was read of. -/
theorem alike_writtenType (inside : nested.Alike endings)
    : Alike endings limit (writtenType nested) (writtenType nested) :=
  (inside.type _ true).captured.bind fun _ => .bind (.print _) fun _ => .pure _

-----------------------------------------------------------------------------------------
-- Signatures
-----------------------------------------------------------------------------------------

/-- The types and bounds of the whole grammar are read alike, by induction on how deep they lie. -/
theorem alike_language (depth : Nat)
    : (language depth).Alike endings := by
  induction depth with
  | zero => exact ⟨agree_language_self 0, fun _ _ => .failure, fun _ _ _ => .failure⟩
  | succ depth ih =>
      exact ⟨agree_language_self (depth + 1), fun _ => alike_typeExpr ih, fun _ => alike_bound ih⟩

/-- The output of a signature stands behind its arrow. -/
theorem alike_signatureOutput (inside : nested.Alike endings)
    : Alike endings limit (signatureOutput nested) (signatureOutput nested) :=
  .bind (.optionalMark "->") fun _ =>
    .ite (fun _ => (alike_writtenType inside).bind fun _ => .pure _) fun _ => .pure _

/-- A signature is read alike where types and bounds are. -/
theorem alike_signature (inside : nested.Alike endings) (safe : Bool)
    : Alike endings limit (signature nested safe) (signature nested safe) := by
  refine (Alike.optionalWord "const").discard.bind fun _ => .bind (.optionalWord "async") fun _ => ?_
  refine .bind (.look (blind_isWord "safe")) fun _ => ?_
  refine .choice (takes_keyword _).alike (Alike.optionalWord "unsafe").discard fun _ => ?_
  refine alike_convention.bind fun _ => (takes_keyword _).alike.bind fun _ => ?_
  refine takes_identifier.alike.bind fun _ => (alike_genericParameters inside).bind fun _ => ?_
  refine (takes_group _ _).alike.bind fun arguments => ?_
  cases readArguments arguments with
  | none => exact .failure
  | some found =>
      refine (alike_signatureOutput inside).bind fun _ => ?_
      exact (alike_whereClause inside).discard.bind fun _ => .pure _

/-- A visibility is a word, and a group behind it. What may stand in the group is the same wherever it
is read from.
-/
theorem alike_visibility : Alike endings limit visibility visibility := by
  refine .bind (.optionalWord "pub") fun _ => .ite (fun _ => ?_) fun _ => .pure _
  have narrowed (limit : Nat) (inner : Tokens) (narrower : Parser Bool)
      (same
        : narrower
          = if isOneOf ["crate", "self", "super"] inner then
              if inner.tail.isEmpty then do discard anyGroup; return true
              else return true
            else if isWord "in" inner then do
              group .paren (do keyword "in"; discard plainPath)
              return true
            else return true)
      : Alike endings limit narrower narrower := by
    rw [same]
    refine .ite (fun _ => .ite (fun _ => ?_) fun _ => .pure true) fun _ => .ite (fun _ => ?_) fun _ => .pure true
    · exact takes_anyGroup.alike.discard.bind fun _ => .pure true
    · exact (takes_group _ _).alike.bind fun _ => .pure true
  refine .front (leaves_of_agree fun _ => .after leaves_front fun _ => ?_) fun read => ?_
  · split
    · exact (narrowed 0 _ _ rfl).leaves.agree
    · exact .pure true
  · cases read with
    | nil =>
        obtain ⟨delimiter, inner, behind, elsewhere⟩ := endings
        cases delimiter with
        | paren => exact narrowed _ inner _ rfl
        | _ => exact .pure true
    | cons token read =>
        cases token with
        | group delimiter inner =>
            cases delimiter with
            | paren => exact narrowed _ inner _ rfl
            | _ => exact .pure true
        | _ => exact .pure true

end Wiring.Source.Grammar
