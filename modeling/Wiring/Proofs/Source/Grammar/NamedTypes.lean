import Wiring.Proofs.Source.Grammar.NamedParts

/-! Types and patterns keep to identifiers: what stands behind one is read of identifiers, if all parts
inside are, and the paths that types are consist of them.
-/

namespace Wiring.Source.Grammar

variable {nested : Nested}

-----------------------------------------------------------------------------------------
-- Attributes
-----------------------------------------------------------------------------------------

/-- A plain path is words and marks, by induction on its bound. -/
@[grind ←]
theorem steady_plainSegments (fuel : Nat)
    : Steady (plainSegments fuel) := by
  induction fuel with
  | zero =>
      unfold plainSegments
      grind
  | succ fuel ih =>
      unfold plainSegments
      grind

/-- The same from its first mark on. -/
@[grind ←]
theorem steady_plainPath : Steady plainPath := by
  unfold plainPath
  grind

/-- An attribute is a group behind a mark. -/
@[grind ←]
theorem steady_outerAttribute : Steady (outerAttribute nested) := by
  unfold outerAttribute
  grind

/-- An inner one is behind two marks. -/
@[grind ←]
theorem steady_innerAttribute : Steady (innerAttribute nested) := by
  unfold innerAttribute
  grind

/-- Attributes are read one by one. -/
@[grind ←]
theorem steady_outerAttributes : Steady (outerAttributes nested) := by
  unfold outerAttributes
  grind

/-- So are inner ones. -/
@[grind ←]
theorem steady_innerAttributes : Steady (innerAttributes nested) := by
  unfold innerAttributes
  grind

/-- A block is a group. -/
@[grind ←]
theorem steady_block : Steady (block nested) := by
  unfold block
  grind

/-- So is one with inner attributes. -/
@[grind ←]
theorem steady_attributedBlock : Steady (attributedBlock nested) := by
  unfold attributedBlock
  grind

-----------------------------------------------------------------------------------------
-- Arguments of paths
-----------------------------------------------------------------------------------------

/-- A constant is a literal, a name or a block. -/
@[grind ←]
theorem steady_constantArgument : Steady (constantArgument nested) := by
  unfold constantArgument
  grind

/-- The value of an argument is a constant or a type. -/
@[grind ←]
theorem steady_argumentValue (inside : nested.Named)
    : Steady (argumentValue nested) := by
  unfold argumentValue
  grind

/-- The path that a type is spelled as is named. -/
theorem TypeForm.Named.spelled {form : TypeForm} (named : form.Named)
    : ∀ path ∈ form.spelled?, path.Named := by
  intro path found
  unfold TypeForm.spelled? at found
  split at found
  · split at found
    · contradiction
    · obtain rfl := Option.some.inj found
      exact TypePath.Named.spelled named
  · contradiction

/-- An argument that is a path consists of identifiers. -/
theorem keeps_genericArgument (inside : nested.Named)
    : Keeps (fun argument => ∀ path ∈ argument.2, path.Named) (genericArgument nested) := by
  have none {isLifetime : Bool}
      : Keeps (fun argument => ∀ path ∈ argument.2, path.Named)
          (pure (isLifetime, none) : Parser (Bool × Option SpelledPath)) :=
    .pure (by simp)
  unfold genericArgument
  refine .after steady_front fun tokens => .ite (fun _ => ?_) fun _ => .ite (fun _ => ?_) fun _ => ?_
  · exact .after steady_lifetime fun _ => none
  · exact .after (steady_constantArgument) fun _ => none
  · refine (inside.type true).bind fun form named => ?_
    have given
        : Keeps (fun argument => ∀ path ∈ argument.2, path.Named)
            (pure (false, form.spelled?) : Parser (Bool × Option SpelledPath)) :=
      .pure named.spelled
    refine .ite (fun _ => given) fun _ => .after (steady_optionalMark _) fun _ => ?_
    refine .ite (fun _ => .after (steady_argumentValue inside) fun _ => none) fun _ => ?_
    refine .after (steady_optionalMark _) fun _ => .ite (fun _ => ?_) fun _ => given
    exact .after (by grind) fun _ => none

/-- Of several arguments none is kept, and of one the path that it is. -/
theorem named_pathArguments {arguments : List ListedArgument}
    (named : ∀ argument ∈ arguments, ∀ path ∈ argument.path?, path.Named)
    : (ListedArgument.pathArguments arguments).Named := by
  unfold ListedArgument.pathArguments
  split
  · trivial
  · rename_i argument
    split
    · rename_i path found
      exact named argument (by simp) path found
    · trivial
  · trivial

/-- A lone argument that is a path is named, since types are. -/
theorem keeps_genericArguments (inside : nested.Named)
    : Keeps PathArguments.Named (genericArguments nested) := by
  unfold genericArguments
  refine .after (by grind) fun _ => .after (steady_mark _) fun _ => ?_
  have arguments := ((keeps_genericArgument inside).captured.separated (isMark ">") ",").silently
  refine arguments.bind fun found named => .after (steady_print _) fun _ => ?_
  refine .after (steady_mark _) fun _ => .pure (named_pathArguments fun argument member => ?_)
  obtain ⟨item, among, rfl⟩ := List.mem_map.mp member
  exact named item among

-----------------------------------------------------------------------------------------
-- Paths
-----------------------------------------------------------------------------------------

/-- A segment of a path is an identifier, and so are those of its argument. -/
theorem keeps_segment (inside : nested.Named) (place : PathPlace)
    : Keeps (fun found => found.1.Named) (segment nested place) := by
  unfold segment
  refine .after (steady_sees _) fun _ => .ite (fun _ => ?_) fun _ => ?_
  · exact keeps_anyWord.bind fun (name, _) token => .pure ⟨token, trivial⟩
  · refine .after (steady_sees _) fun _ => ?_
    extract_lets behind
    have read
        : ∀ word : String × Nat, Identifier.isToken word.1 = true
          → Keeps (fun found => found.1.Named) (behind word) := by
      intro (name, line) token
      refine .after (steady_sees _) fun _ => .ite (fun _ => ?_) fun _ => .pure ⟨token, trivial⟩
      refine (keeps_genericArguments inside).captured.bind fun (arguments, printed) named => ?_
      refine .after (steady_sees _) fun _ => .after (steady_print _) fun _ => ?_
      exact .pure ⟨token, named⟩
    exact .ite (fun _ => keeps_anyWord.bind read) fun _ => keeps_identifier.bind read

/-- A path is named if its segments are. -/
theorem named_ofSegments {rooted : Bool} {first : PathSegment × Bool}
    {others : List (PathSegment × Bool)} (here : first.1.Named)
    (there : ∀ segment ∈ others, segment.1.Named)
    : (ReadPath.ofSegments rooted (first :: others)).path.Named := by
  intro segment member
  obtain ⟨item, among, rfl⟩ := List.mem_map.mp member
  rcases List.mem_cons.mp among with rfl | among
  · exact here
  · exact there item among

/-- The segments of a path behind its first one. -/
theorem keeps_furtherSegments (inside : nested.Named) (place : PathPlace) (test : Tokens → Bool)
    : Keeps (fun others => ∀ other ∈ others, other.1.Named)
        (manyWhile test do
          mark "::"
          segment nested place) :=
  .manyWhile (.after (steady_mark _) fun _ => keeps_segment inside place) test

/-- The segments that a path is made of are named. -/
theorem keeps_path (inside : nested.Named) (place : PathPlace)
    : Keeps (fun read => read.path.Named) (path nested place) := by
  unfold path
  refine .after (steady_optionalMark _) fun _ => ?_
  refine (keeps_segment inside place).bind fun first here => ?_
  refine (keeps_furtherSegments inside place _).bind fun others there => ?_
  exact .pure (named_ofSegments here there)

/-- So a path is steady. -/
@[grind ←]
theorem steady_path (inside : nested.Named) (place : PathPlace)
    : Steady (path nested place) :=
  (keeps_path inside place).steady

/-- A member path has the segments of its trait and its member. -/
theorem keeps_memberPath (inside : nested.Named) (place : PathPlace)
    : Keeps (fun read => read.path.Named) (memberPath nested place) := by
  unfold memberPath
  refine .after (steady_mark _) fun _ => .after (by grind) fun _ => ?_
  refine .after (steady_optionalWord _) fun _ => ?_
  extract_lets behind
  have read : ∀ answer, Keeps (fun read => read.path.Named) (behind answer) := by
    refine fun _ => .after (steady_mark _) fun _ => .after (steady_mark _) fun _ => ?_
    refine (keeps_segment inside place).bind fun first here => ?_
    refine (keeps_furtherSegments inside place _).bind fun others there => ?_
    exact .pure (named_ofSegments here there)
  exact .ite (fun _ => .after (by grind) read) fun _ => read ()

/-- Either kind of path is named. -/
theorem keeps_anyPath (inside : nested.Named) (place : PathPlace)
    : Keeps (fun read => read.2.path.Named) (anyPath nested place) := by
  unfold anyPath
  refine .after (steady_sees _) fun _ => .ite (fun _ => ?_) fun _ => ?_
  · exact (keeps_memberPath inside place).bind fun read named => .pure named
  · exact (keeps_path inside place).bind fun read named => .pure named

/-- So either kind is steady. -/
@[grind ←]
theorem steady_anyPath (inside : nested.Named) (place : PathPlace)
    : Steady (anyPath nested place) :=
  (keeps_anyPath inside place).steady

/-- Arguments are steady. -/
@[grind ←]
theorem steady_genericArguments (inside : nested.Named)
    : Steady (genericArguments nested) :=
  (keeps_genericArguments inside).steady

/-- A returned type is one inside. -/
@[grind ←]
theorem steady_returnType (inside : nested.Named) (plus : Bool)
    : Steady (returnType nested plus) := by
  unfold returnType
  grind

/-- The arguments of a function trait are a group. -/
@[grind ←]
theorem steady_callArguments (inside : nested.Named)
    : Steady (callArguments nested) := by
  unfold callArguments
  grind

/-- The path of a trait may have them behind it. -/
@[grind ←]
theorem steady_traitPath (inside : nested.Named)
    : Steady (traitPath nested) := by
  unfold traitPath
  grind

-----------------------------------------------------------------------------------------
-- Generics
-----------------------------------------------------------------------------------------

/-- Bounds of a parameter are joined. -/
@[grind ←]
theorem steady_parameterBounds {α : Type} {bound : Parser α} (steady : Steady bound)
    (ends : Tokens → Bool)
    : Steady (parameterBounds ends bound) := by
  have bounds : Steady (do mark ":"; joined ends "+" bound) :=
    steady_bind (steady_mark _) fun _ => steady_joined ends "+" steady
  unfold parameterBounds
  refine .after (steady_sees _) fun _ => .ite (fun _ => ?_) fun _ => steady_pure ()
  exact .after (steady_captured bounds) fun _ => steady_print _

/-- A parameter is a lifetime, a constant or a type with its bounds. -/
@[grind ←]
theorem steady_genericParameter (inside : nested.Named) (blank : Bool)
    : Steady (genericParameter nested blank) := by
  unfold genericParameter
  refine .after (steady_discard steady_outerAttributes) fun _ => .after (steady_sees _) fun _ => ?_
  refine .ite (fun _ => ?_) fun _ => .after (steady_optionalWord _) fun _ => ?_
  · refine .after steady_lifetime fun _ => ?_
    exact .after (steady_parameterBounds steady_lifetime _) fun _ => steady_pure _
  refine .ite (fun _ => ?_) fun _ => .after (steady_sees _) fun _ => .ite (fun _ => ?_) fun _ => ?_
  · refine .after (steady_discard steady_identifier) fun _ => .after (steady_mark _) fun _ => ?_
    refine .after (steady_discard (inside.steady_type true)) fun _ => ?_
    refine .after (steady_optionalMark _) fun _ => .ite (fun _ => ?_) fun _ => steady_pure _
    exact .after steady_constantArgument fun _ => steady_pure _
  · exact .after (steady_discard steady_anyWord) fun _ => steady_pure _
  · refine .after (steady_discard steady_identifier) fun _ => ?_
    refine .after (steady_parameterBounds (inside.steady_bound false true) _) fun _ => ?_
    refine .after (steady_optionalMark _) fun _ => .ite (fun _ => ?_) fun _ => steady_pure _
    exact .after (steady_discard (inside.steady_type true)) fun _ => steady_pure _

/-- Bound parameters are read up to their closing mark. -/
@[grind ←]
theorem steady_boundParameters (inside : nested.Named)
    : Steady (boundParameters nested) := by
  unfold boundParameters
  refine .after (steady_keyword _) fun _ => .after (steady_mark _) fun _ => ?_
  have parameters := steady_separated (isMark ">") "," (steady_genericParameter inside false)
  exact .after (steady_discard parameters) fun _ => steady_mark _

/-- So are generic parameters. -/
@[grind ←]
theorem steady_bracketedParameters (inside : nested.Named)
    : Steady (bracketedParameters nested) := by
  have parameters :=
    steady_separated (isMark ">") "," (steady_captured (steady_genericParameter inside true))
  unfold bracketedParameters
  refine .after (steady_silently ?_) fun _ => ?_
  · refine .after (steady_mark _) fun _ => .after parameters fun _ => ?_
    exact .after (steady_mark _) fun _ => steady_pure _
  · extract_lets
    exact .ite (fun _ => steady_pure _) fun _ => .after (steady_print _) fun _ => steady_pure _

/-- They may be missing. -/
@[grind ←]
theorem steady_genericParameters (inside : nested.Named)
    : Steady (genericParameters nested) := by
  unfold genericParameters
  refine .after (steady_sees _) fun _ => ?_
  exact .ite (fun _ => steady_bracketedParameters inside) fun _ => steady_pure _

/-- A predicate is one of a lifetime or of a type. -/
@[grind ←]
theorem steady_wherePredicate (inside : nested.Named)
    : Steady (wherePredicate nested) := by
  have lifetimes := steady_joined endsOutlived "+" steady_lifetime
  have bounds := steady_joined endsWhere "+" (inside.steady_bound false true)
  unfold wherePredicate
  refine .after steady_front fun _ => .ite (fun _ => ?_) fun _ => ?_
  · refine .after steady_lifetime fun _ => .after (steady_mark _) fun _ => steady_discard lifetimes
  · extract_lets behind
    have type : Steady (behind ()) :=
      .after (steady_discard (inside.steady_type true)) fun _ =>
        .after (steady_mark _) fun _ => steady_discard bounds
    exact .ite (fun _ => .after (steady_boundParameters inside) fun _ => type) fun _ => type

/-- Predicates are read one by one. -/
@[grind ←]
theorem steady_whereClause (inside : nested.Named)
    : Steady (whereClause nested) := by
  unfold whereClause
  refine .after (steady_sees _) fun _ => .ite (fun _ => ?_) fun _ => steady_pure _
  refine .after (steady_captured ?_) fun _ => .after (steady_print _) fun _ => steady_pure _
  refine .after (steady_keyword _) fun _ => .after (steady_sees _) fun _ => ?_
  exact .after (steady_require _) fun _ => steady_joined endsWhere "," (steady_wherePredicate inside)

/-- A captured name is one token or two. -/
@[grind ←]
theorem steady_capturedName : Steady capturedNames.capturedName := by
  unfold capturedNames.capturedName
  grind

/-- Captured names are read up to their closing mark. -/
@[grind ←]
theorem steady_capturedNames : Steady capturedNames := by
  unfold capturedNames
  grind

/-- The mark for constants is a group or a word. -/
@[grind ←]
theorem steady_constantMark : Steady constantMark := by
  unfold constantMark
  grind

/-- The bound of a trait is its path. -/
@[grind ←]
theorem steady_traitBound (inside : nested.Named) (constants : Bool)
    : Steady (traitBound nested constants) := by
  unfold traitBound
  refine .after (steady_sees _) fun _ => ?_
  extract_lets behind
  have trait : ∀ answer, Steady (behind answer) := by
    refine fun _ => .after steady_constantMark fun _ => .after (steady_require _) fun _ => ?_
    refine .after (steady_optionalMark _) fun _ => .after (steady_require _) fun _ => ?_
    exact .after (steady_traitPath inside) fun _ => steady_pure _
  exact .ite (fun _ => .after (steady_boundParameters inside) trait) fun _ => trait ()

/-- So it is in parentheses. -/
@[grind ←]
theorem steady_enclosedTraitBound (inside : nested.Named) (constants : Bool)
    : Steady (enclosedTraitBound nested constants) := by
  unfold enclosedTraitBound
  extract_lets contents
  have read : Steady contents :=
    .after (steady_captured (steady_traitBound inside constants)) fun _ =>
      .after (steady_print _) fun _ => steady_pure _
  refine .after (steady_sees _) fun _ => ?_
  exact .ite (fun _ => steady_group _ _) fun _ => read

/-- A bound is a lifetime, captured names or a trait. -/
@[grind ←]
theorem steady_bound (inside : nested.Named) (captures constants : Bool)
    : Steady (bound nested captures constants) := by
  unfold bound
  refine .after (steady_sees _) fun _ => .ite (fun _ => ?_) fun _ => ?_
  · exact .after steady_lifetime fun _ => steady_pure _
  · refine .after (steady_sees _) fun _ => .ite (fun _ => ?_) fun _ => ?_
    · refine .after (steady_require _) fun _ => ?_
      exact .after steady_capturedNames fun _ => steady_pure _
    · exact steady_asWrittenIf _ (steady_enclosedTraitBound inside constants)

-----------------------------------------------------------------------------------------
-- Types
-----------------------------------------------------------------------------------------

/-- Bounds are joined by plus marks, by induction on their number. -/
@[grind ←]
theorem steady_boundSum (inside : nested.Named) (plus captures constants : Bool) (fuel : Nat)
    : Steady (boundSum nested plus captures constants fuel) := by
  induction fuel with
  | zero =>
      unfold boundSum
      grind
  | succ fuel ih =>
      unfold boundSum
      grind

/-- So they are where a trait has to be among them. -/
@[grind ←]
theorem steady_traitSum (inside : nested.Named) (plus captures constants : Bool)
    : Steady (traitSum nested plus captures constants) := by
  unfold traitSum
  grind

/-- Further bounds are joined too. -/
@[grind ←]
theorem steady_furtherBounds (inside : nested.Named)
    : Steady (furtherBounds nested) := by
  unfold furtherBounds
  grind

/-- A calling convention is words and a text. -/
@[grind ←]
theorem steady_convention : Steady convention := by
  unfold convention
  grind

/-- The arguments of a function pointer are a group. -/
@[grind ←]
theorem steady_functionPointer (inside : nested.Named)
    : Steady (functionPointer nested) := by
  unfold functionPointer
  grind

/-- A built-in type is words and a group. -/
@[grind ←]
theorem steady_builtinType : Steady builtinType := by
  unfold builtinType
  grind

/-- The bounds of an object stand behind `dyn`. -/
@[grind ←]
theorem steady_objectType (inside : nested.Named) (plus : Bool)
    : Steady (objectType nested plus) := by
  unfold objectType
  grind

/-- The type of a pointer is one inside. -/
@[grind ←]
theorem steady_pointerType (inside : nested.Named)
    : Steady (pointerType nested) := by
  unfold pointerType
  grind

/-- So is that of a reference. -/
@[grind ←]
theorem steady_referenceType (inside : nested.Named)
    : Steady (referenceType nested) := by
  unfold referenceType
  grind

/-- A type that starts with a keyword is told by it. -/
@[grind ←]
theorem steady_keywordType (inside : nested.Named) (plus : Bool)
    : Steady (keywordType nested plus) := by
  unfold keywordType
  grind

/-- What is no path is named whatever it consists of. -/
theorem keeps_other {parser : Parser Unit} (steady : Steady parser)
    : Keeps TypeForm.Named (do
        parser
        return .other) :=
  .after steady fun _ => .pure trivial

/-- A path as a type keeps its name. -/
theorem keeps_pathType (inside : nested.Named) (plus : Bool) (binder : Tokens)
    : Keeps TypeForm.Named (pathType nested plus binder) := by
  unfold pathType
  refine (keeps_anyPath inside .type).captured.bind fun ((qualified, read), printed) named => ?_
  refine .ite (fun _ => keeps_other (steady_print _)) fun _ => ?_
  refine .after (steady_sees _) fun _ => .ite (fun _ => ?_) fun _ => ?_
  · exact .after (steady_print _) fun _ => .after (steady_mark _) fun _ =>
      keeps_other (steady_discard steady_anyGroup)
  · refine .after (steady_print _) fun _ => .after (steady_sees _) fun _ => ?_
    refine .ite (fun _ => keeps_other (steady_furtherBounds inside)) fun _ => .pure ?_
    split
    · exact named
    · trivial

/-- Behind bound parameters, it does so as well. -/
theorem keeps_quantifiedType (inside : nested.Named) (plus : Bool)
    : Keeps TypeForm.Named (quantifiedType nested plus) := by
  unfold quantifiedType
  refine .after (by grind) fun ((), binder) => .after (steady_sees _) fun _ => ?_
  refine .ite (fun _ => ?_) fun _ => ?_
  · exact .after (steady_print _) fun _ => keeps_other (steady_functionPointer inside)
  · exact .after (steady_sees _) fun _ => .after (steady_require _) fun _ =>
      keeps_pathType inside plus binder

/-- Bounds where only bounds may follow. -/
@[grind ←]
theorem steady_strictBounds (inside : nested.Named)
    : Steady (strictBounds nested) := by
  unfold strictBounds
  grind

/-- Types in parentheses are no path. -/
theorem keeps_tupleType (inside : nested.Named) (plus : Bool)
    : Keeps TypeForm.Named (tupleType nested plus) := by
  unfold tupleType
  refine .after (by grind) fun (only?, printed) => .after (steady_sees _) fun _ => ?_
  extract_lets behind
  have read : ∀ answer, Keeps TypeForm.Named (behind answer) := fun _ => .pure trivial
  refine .ite (fun _ => ?_) fun _ => .after (steady_print _) read
  cases only? with
  | none => exact .after (steady_print _) read
  | some form =>
      cases form with
      | path _ | loneTrait _ =>
          exact .after (steady_print _) fun _ => .after (steady_strictBounds inside) read
      | other => exact .after (steady_print _) read

/-- A bare trait is no path, so there is nothing to be named. -/
theorem keeps_traitBehind {bounds : Parser Unit} (steady : Steady bounds) (tokens : Tokens)
    : Keeps TypeForm.Named (traitBehind tokens bounds) := by
  unfold traitBehind
  refine .after (steady_sees _) fun _ => .ite (fun _ => keeps_other steady) fun _ => .pure trivial

/-- A type in parentheses is the one inside. -/
theorem keeps_parenType (inside : nested.Named) (plus : Bool) (inner : Tokens)
    : Keeps TypeForm.Named (parenType nested plus inner) := by
  unfold parenType
  refine .ite (fun _ => keeps_other (steady_group _ _)) fun _ => ?_
  refine .ite (fun _ => keeps_other (steady_group _ _)) fun _ => ?_
  refine .ite (fun _ => ?_) fun _ => keeps_tupleType inside plus
  exact .after (steady_group _ _) fun (_, printed) =>
    keeps_traitBehind (steady_strictBounds inside) printed

/-- The path that a type is consists of identifiers. -/
theorem keeps_typeExpr (inside : nested.Named) (plus : Bool)
    : Keeps TypeForm.Named (typeExpr nested plus) := by
  unfold typeExpr
  refine .after steady_front fun tokens => ?_
  split
  · exact keeps_parenType inside plus _
  · exact keeps_other (steady_group _ _)
  · refine .ite (fun _ => keeps_quantifiedType inside plus) fun _ => ?_
    refine .ite (fun _ => keeps_other steady_builtinType) fun _ => ?_
    refine .ite (fun _ => keeps_pathType inside plus []) fun _ => ?_
    exact keeps_other (steady_keywordType inside plus)

/-- A written type is named, for it is one inside. -/
theorem keeps_writtenType (inside : nested.Named)
    : Keeps TypeExpr.Named (writtenType nested) := by
  unfold writtenType
  refine (inside.type true).captured.bind fun (form, printed) named => ?_
  exact .after (steady_print _) fun _ => .pure named.path?

-----------------------------------------------------------------------------------------
-- Members and patterns
-----------------------------------------------------------------------------------------

/-- The place of a field is one number. -/
@[grind ←]
theorem steady_fieldPlace : Steady fieldPlace := by
  intro before answer after named read
  unfold fieldPlace at read
  split at read
  · obtain ⟨place, found, same⟩ := Option.map_eq_some_iff.mp read
    obtain ⟨rfl, rfl⟩ := Prod.mk.inj same
    exact ⟨named.2, trivial⟩
  · contradiction

/-- Two places with a dot between them are one number too. -/
@[grind ←]
theorem steady_dottedPlaces : Steady dottedPlaces := by
  intro before answer after named read
  unfold dottedPlaces at read
  split at read
  · obtain ⟨places, _, same⟩ := Option.bind_eq_some_iff.mp read
    obtain ⟨rfl, rfl⟩ := Prod.mk.inj (Option.some.inj same)
    exact ⟨named.2, trivial⟩
  · contradiction

/-- A member is a name or a place. -/
@[grind ←]
theorem steady_member : Steady member := by
  unfold member
  grind

/-- Alternatives are patterns inside. -/
@[grind ←]
theorem steady_alternatives (inside : nested.Named)
    : Steady (alternatives nested) := by
  unfold alternatives
  grind +splitImp

/-- The bound of a range is missing or an operand. -/
@[grind ←]
theorem steady_rangeBound (inside : nested.Named)
    : Steady (rangeBound nested) := by
  unfold rangeBound
  grind

/-- The dots of a range are a mark. -/
@[grind ←]
theorem steady_patternDots : Steady patternDots := by
  unfold patternDots
  grind

/-- A range goes on behind its dots. -/
@[grind ←]
theorem steady_rangeBehind (inside : nested.Named)
    : Steady (rangeBehind nested) := by
  unfold rangeBehind
  grind

/-- So does one without a start. -/
@[grind ←]
theorem steady_rangeWithoutStart (inside : nested.Named)
    : Steady (rangeWithoutStart nested) := by
  unfold rangeWithoutStart
  grind

/-- A constant may start a range. -/
@[grind ←]
theorem steady_boundPattern (inside : nested.Named)
    : Steady (boundPattern nested) := by
  unfold boundPattern
  grind

/-- Behind a path there may be a group. -/
@[grind ←]
theorem steady_pathPattern (inside : nested.Named)
    : Steady (pathPattern nested) := by
  unfold pathPattern
  grind

/-- Behind a name there may be a pattern. -/
@[grind ←]
theorem steady_namePattern (inside : nested.Named)
    : Steady (namePattern nested) := by
  unfold namePattern
  grind

/-- The other patterns are told by their first tokens. -/
@[grind ←]
theorem steady_otherPattern (inside : nested.Named)
    : Steady (otherPattern nested) := by
  unfold otherPattern
  grind

/-- So a pattern is steady, in each of its forms. -/
@[grind ←]
theorem steady_singlePattern (inside : nested.Named)
    : Steady (singlePattern nested) := by
  unfold singlePattern
  grind +splitImp

end Wiring.Source.Grammar
