import Wiring.Proofs.Source.Grammar.NamedExpressions
import Wiring.Source.File

/-! Items keep to identifiers, and so does the whole grammar: of whatever text a file consists, all names
that an index takes up of it are identifiers.
-/

namespace Wiring.Source

namespace Grammar

open Identifier

variable {nested : Nested}

-----------------------------------------------------------------------------------------
-- Functions
-----------------------------------------------------------------------------------------

/-- A receiver may have a type behind its colon. -/
@[grind ←]
theorem steady_receiver (inside : nested.Named)
    : Steady (receiver nested) := by
  unfold receiver
  grind

/-- A written type is steady. -/
@[grind ←]
theorem steady_writtenType (inside : nested.Named)
    : Steady (writtenType nested) :=
  (keeps_writtenType inside).steady

/-- The output of a signature is one. -/
@[grind ←]
theorem steady_signatureOutput (inside : nested.Named)
    : Steady (signatureOutput nested) := by
  unfold signatureOutput
  grind

/-- The body of a function is a group. -/
@[grind ←]
theorem steady_functionBody : Steady (functionBody nested) := by
  unfold functionBody
  grind

/-- Whether the path that an argument has as its type consists of identifiers. -/
def Argument.Named : Argument → Prop
  | .parameter found => found.type.Named
  | .receiver | .variadic => True

/-- The type of a parameter without a name is named. -/
theorem keeps_namelessParameter (inside : nested.Named)
    : Keeps (fun parameter => parameter.type.Named) (namelessParameter nested) := by
  unfold namelessParameter
  exact .after (steady_print _) fun _ => (keeps_writtenType inside).bind fun type named => .pure named

/-- An argument that is a parameter has a named type. -/
theorem keeps_argument (inside : nested.Named)
    : Keeps Argument.Named (argument nested) := by
  unfold argument
  refine .after (steady_discard steady_outerAttributes) fun _ => ?_
  refine .after (steady_optionalMark _) fun _ => ?_
  refine .ite (fun _ => .pure trivial) fun _ => .after (by grind) fun receiver? => ?_
  cases receiver? with
  | some _ => exact .pure trivial
  | none =>
      refine .after steady_front fun _ => .ite (fun _ => ?_) fun _ => ?_
      · exact (keeps_namelessParameter inside).bind fun parameter named => .pure named
      · refine .after (by grind) fun _ => .after (steady_mark _) fun _ => ?_
        refine .after (steady_optionalMark _) fun _ => .ite (fun _ => .pure trivial) fun _ => ?_
        exact (keeps_writtenType inside).bind fun type named => .pure named

/-- Parameters are taken over from the arguments, by induction on them. -/
theorem named_parametersOf {arguments : List Argument} {parameters : List FunctionParameter}
    (named : ∀ argument ∈ arguments, argument.Named)
    (found : readArguments.parametersOf arguments = some parameters)
    : ∀ parameter ∈ parameters, parameter.type.Named := by
  induction arguments generalizing parameters with
  | nil =>
      obtain rfl := Option.some.inj found
      simp
  | cons argument rest ih =>
      obtain ⟨here, there⟩ := List.forall_mem_cons.mp named
      cases argument with
      | receiver => simp [readArguments.parametersOf] at found
      | variadic =>
          cases rest with
          | nil =>
              obtain rfl := Option.some.inj found
              simp
          | cons _ _ => simp [readArguments.parametersOf] at found
      | parameter parameter =>
          obtain ⟨others, foundOthers, rfl⟩ := Option.map_eq_some_iff.mp found
          exact List.forall_mem_cons.mpr ⟨here, ih there foundOthers⟩

/-- So are those behind a receiver. -/
theorem named_readArguments {arguments : List Argument} {takesSelf : Bool}
    {parameters : List FunctionParameter} (named : ∀ argument ∈ arguments, argument.Named)
    (found : readArguments arguments = some (takesSelf, parameters))
    : ∀ parameter ∈ parameters, parameter.type.Named := by
  unfold readArguments at found
  split at found
  · obtain ⟨_, inner, same⟩ := Option.map_eq_some_iff.mp found
    obtain ⟨-, rfl⟩ := Prod.mk.inj same
    exact named_parametersOf (List.forall_mem_cons.mp named).2 inner
  · obtain ⟨_, inner, same⟩ := Option.map_eq_some_iff.mp found
    obtain ⟨-, rfl⟩ := Prod.mk.inj same
    exact named_parametersOf named inner

/-- A function is named by an identifier, and the paths of its parameters consist of some. -/
theorem keeps_signature (inside : nested.Named) (safe : Bool)
    : Keeps Signature.Named (signature nested safe) := by
  unfold signature
  refine .after (by grind) fun _ => .after (steady_optionalWord _) fun isAsync => ?_
  refine .after (steady_sees _) fun _ => ?_
  extract_lets behind
  have read (answer : Unit) : Keeps Signature.Named (behind answer) := by
    refine .after steady_convention fun _ => .after (steady_keyword _) fun _ => ?_
    refine keeps_identifier.bind fun (name, line) token => ?_
    refine .after (steady_genericParameters inside) fun generics => ?_
    refine (Keeps.group (keeps_argument inside).commaList _).bind fun arguments named => ?_
    cases found : readArguments arguments with
    | none => exact .failure
    | some result =>
        obtain ⟨takesSelf, parameters⟩ := result
        refine .after (steady_signatureOutput inside) fun output => .after (by grind) fun _ => ?_
        exact .pure ⟨token, named_readArguments named found⟩
  exact .ite (fun _ => .after (steady_keyword _) read) fun _ => .after (by grind) read

/-- A function keeps the name and the types of its signature. -/
theorem keeps_functionForm (inside : nested.Named) (safe : Bool)
    : Keeps (fun found => found.1.Named) (functionForm nested safe) := by
  unfold functionForm
  refine (keeps_signature inside safe).bind fun found named => ?_
  refine .after (steady_optionalMark _) fun _ => .ite (fun _ => .pure named) fun _ => ?_
  exact .after steady_functionBody fun _ => .pure named

-----------------------------------------------------------------------------------------
-- Imports
-----------------------------------------------------------------------------------------

/-- A visibility is a word, and a group behind it. -/
@[grind ←]
theorem steady_visibility : Steady visibility := by
  unfold visibility
  refine steady_bind (steady_optionalWord _) fun written => ?_
  split
  · refine steady_bind steady_front fun tokens => ?_
    extract_lets behind
    have read (answer : Unit) : Steady (behind answer) := steady_pure true
    split
    · split
      · split <;> grind
      · grind
    · exact read ()
  · exact steady_pure false

/-- A name or a blank is one token. -/
@[grind ←]
theorem steady_nameOrBlank : Steady nameOrBlank := by
  unfold nameOrBlank
  grind

/-- An answer that is there. -/
theorem keeps_some {α : Type} {good : α → Prop} {answer : α} (holds : good answer)
    : Keeps (fun answer? => ∀ answer ∈ answer?, good answer)
        (pure (some answer) : Parser (Option α)) := by
  refine .pure fun found same => ?_
  obtain rfl := Option.some.inj same
  exact holds

/-- The trees of an import name identifiers, by induction on their depth. -/
theorem keeps_useTree (crateRoot : Bool) (fuel : Nat)
    : Keeps (fun tree? => ∀ tree ∈ tree?, tree.Named) (useTree crateRoot fuel) := by
  induction fuel generalizing crateRoot with
  | zero => exact .failure
  | succ fuel ih =>
      unfold useTree
      refine .after steady_front fun tokens => .ite (fun _ => ?_) fun _ => ?_
      · refine keeps_anyWord.bind fun (name, line) token => .after (steady_optionalMark _) fun _ => ?_
        refine .ite (fun _ => (ih false).bind fun tree? named => ?_) fun _ => ?_
        · cases tree? with
          | none => exact .failure
          | some tree => exact keeps_some ⟨token, named tree rfl⟩
        · refine .after (steady_optionalWord _) fun _ => .ite (fun _ => ?_) fun _ => keeps_some token
          exact .after steady_nameOrBlank fun (newName, _) => keeps_some token
      · refine .after (steady_optionalMark _) fun _ => .ite (fun _ => keeps_some trivial) fun _ => ?_
        have list {tree : Parser (Option UseTree)}
            (reads : Keeps (fun tree? => ∀ tree ∈ tree?, tree.Named) tree)
            : Keeps (fun trees => ∀ tree? ∈ trees, ∀ tree ∈ tree?, tree.Named)
                (group .brace (commaList tree)) :=
          reads.commaList.group .brace
        refine (list ?_).bind fun trees named => ?_
        · refine .after (steady_optionalMark _) fun _ => .ite (fun _ => ?_) fun _ => ih crateRoot
          exact .after (steady_discard (ih false).steady) fun _ => .pure (by simp)
        · refine .ite (fun _ => .pure (by simp)) fun _ => keeps_some ?_
          refine UseTree.allNamed_iff.mpr fun tree member => ?_
          obtain ⟨tree?, among, same⟩ := List.mem_filterMap.mp member
          exact named tree? among tree same

/-- The trees of a `use` are named, as their words are. -/
theorem keeps_useForm : Keeps (fun found => ∀ tree ∈ found.2, tree.Named) useForm := by
  unfold useForm
  refine .after (steady_keyword _) fun _ => .after (steady_optionalMark _) fun rooted => ?_
  refine .after steady_front fun _ => (keeps_useTree _ _).bind fun tree? named => ?_
  exact .after (steady_mark _) fun _ => .pure named

-----------------------------------------------------------------------------------------
-- Declarations
-----------------------------------------------------------------------------------------

/-- A macro's call is a group behind its path. -/
@[grind ←]
theorem steady_macroCall (named : Bool)
    : Steady (macroCall named) := by
  unfold macroCall
  grind

/-- Named fields are a group. -/
@[grind ←]
theorem steady_fieldsInBraces : Steady (fieldsInBraces nested) := by
  have fields (fuel : Nat) : Steady (namedFields nested fuel) := by
    cases fuel with
    | zero => exact steady_failure
    | succ fuel => exact steady_group _ _
  exact steady_bind steady_front fun _ => fields _

/-- So are fields without names. -/
@[grind ←]
theorem steady_fieldsInParentheses : Steady (fieldsInParentheses nested) :=
  steady_group _ _

/-- The body of a structure is told by its first token. -/
@[grind ←]
theorem steady_structureBody (inside : nested.Named)
    : Steady (structureBody nested) := by
  unfold structureBody
  grind

/-- That of a union is a group. -/
@[grind ←]
theorem steady_unionBody (inside : nested.Named)
    : Steady (unionBody nested) := by
  unfold unionBody
  grind

/-- So is that of an enumeration. -/
@[grind ←]
theorem steady_enumerationBody (inside : nested.Named)
    : Steady (enumerationBody nested) := by
  unfold enumerationBody
  grind

/-- The name of a declared type is an identifier. -/
theorem keeps_typeForm (inside : nested.Named) (word : String) {body : Parser Unit}
    (steady : Steady body)
    : Keeps (fun found => isToken found.1 = true) (typeForm nested word body) := by
  unfold typeForm
  refine .after (steady_keyword _) fun _ => keeps_identifier.bind fun (name, line) token => ?_
  exact .after (by grind) fun _ => .after steady fun _ => .pure token

/-- So is that of an alias. -/
theorem keeps_aliasForm (inside : nested.Named) (place : WherePlace)
    : Keeps (fun read => isToken read.name = true) (aliasForm nested place) := by
  unfold aliasForm
  refine .after (steady_keyword _) fun _ => keeps_identifier.bind fun (name, line) token => ?_
  refine .after (by grind) fun _ => .after (steady_sees _) fun isBounded => ?_
  refine .after (by grind) fun _ => ?_
  extract_lets behind
  have read (placed : Bool) : Keeps (fun read => isToken read.name = true) (behind placed) := by
    refine .after (steady_optionalMark _) fun isDefined => ?_
    extract_lets last conditions
    have ended (answer : Unit) : Keeps (fun read => isToken read.name = true) (last answer) :=
      .after (steady_mark _) fun _ => .pure token
    have conditioned (answer : Unit)
        : Keeps (fun read => isToken read.name = true) (conditions answer) :=
      .ite (fun _ => .after (by grind) ended) fun _ => ended ()
    exact .ite (fun _ => .after (by grind) conditioned) fun _ => conditioned ()
  exact .ite (fun _ => .after (steady_pure _) read) fun _ => .after (steady_whereClause inside) read

/-- A constant has a type and a value. -/
@[grind ←]
theorem steady_constantForm (inside : nested.Named)
    : Steady (constantForm nested) := by
  unfold constantForm
  refine steady_bind (by grind) fun _ => steady_bind (by grind) fun _ => ?_
  refine steady_bind (by grind) fun _ => steady_bind (by grind) fun _ => ?_
  refine steady_bind (by grind) fun _ => steady_bind (by grind) fun _ => ?_
  split <;> grind

/-- So has a static. -/
@[grind ←]
theorem steady_staticForm (inside : nested.Named) (foreign : Bool)
    : Steady (staticForm nested foreign) := by
  unfold staticForm
  refine steady_bind (by grind) fun _ => steady_bind (by grind) fun _ => ?_
  refine steady_bind (by grind) fun _ => steady_bind (by grind) fun _ => ?_
  extract_lets typed behind
  have read (answer : Unit) : Steady (behind answer) := by
    refine steady_bind (by grind) fun _ => ?_
    split <;> grind
  grind

-----------------------------------------------------------------------------------------
-- Items
-----------------------------------------------------------------------------------------

/-- A member of a block that is a function keeps its signature. -/
theorem keeps_implMember (inside : nested.Named)
    : Keeps Member.Named (implMember nested) := by
  refine Keeps.orKept ?_
  refine .after steady_outerAttributes fun attributes => .after steady_visibility fun visible => ?_
  refine .after steady_front fun tokens => ?_
  extract_lets isDefault behind
  have read (answer : Unit) : Keeps (fun found => found.1.Named) (behind answer) := by
    refine .after steady_front fun tokens => .ite (fun _ => ?_) fun _ => ?_
    · refine (keeps_functionForm inside false).bind fun (found, more, hasBody) named => .pure ?_
      split
      · exact named
      · trivial
    · refine .ite (fun _ => .after (steady_constantForm inside) fun _ => .pure trivial) fun _ => ?_
      refine .ite (fun _ => .after (keeps_aliasForm inside _).steady fun _ => .pure trivial) fun _ => ?_
      exact .after (steady_require _) fun _ => .after (steady_macroCall _) fun _ => .pure trivial
  exact .ite (fun _ => .after (steady_keyword _) read) fun _ => read ()

/-- What is good of each member is good of all of them. -/
theorem keeps_membersOf {α : Type} {good : α → Prop} {member : Parser α} (keeps : Keeps good member)
    : Keeps (fun found => ∀ inner ∈ found.2, good inner) (membersOf nested member) :=
  .group (.after steady_innerAttributes fun _ => keeps.untilEnd.bind fun _ named => .pure named) _

/-- Members are a group. -/
@[grind ←]
theorem steady_membersOf {α : Type} (member : Parser α)
    : Steady (membersOf nested member) :=
  steady_group _ _

/-- Bounds of a trait are joined. -/
@[grind ←]
theorem steady_supertraits (inside : nested.Named)
    : Steady (supertraits nested) := by
  unfold supertraits
  grind +splitImp

/-- The import of a crate is words. -/
@[grind ←]
theorem steady_crateImport : Steady crateImport := by
  unfold crateImport
  grind

/-- The definition of a macro is a group behind its name. -/
@[grind ←]
theorem steady_macroDefinition : Steady macroDefinition := by
  unfold macroDefinition
  grind

/-- A foreign block is a group behind its convention. -/
@[grind ←]
theorem steady_foreignBlock : Steady (foreignBlock nested) := by
  unfold foreignBlock
  grind

/-- A block keeps its owner, which is a path, and its members, step by step through its form, each part
being kept or read past.
-/
theorem keeps_implItem (inside : nested.Named) (attributes : List Attribute)
    : Keeps (fun found => found.1.Named) (implItem nested attributes) := by
  unfold implItem
  refine .after steady_visibility fun visible => .after (by grind) fun _ => ?_
  refine .after (by grind) fun _ => .after (steady_keyword _) fun _ => ?_
  refine .after (steady_sees _) fun _ => ?_
  extract_lets behindGenerics
  have generics (generics : ReadParameters)
      : Keeps (fun found => found.1.Named) (behindGenerics generics) := by
    refine .after steady_front fun tokens => ?_
    extract_lets isConst behindConst
    have constant (answer : Unit) : Keeps (fun found => found.1.Named) (behindConst answer) := by
      refine .after steady_front fun tokens => ?_
      extract_lets negative behindMark
      have marked (answer : Unit) : Keeps (fun found => found.1.Named) (behindMark answer) := by
        refine (inside.type true).bind fun first named => ?_
        refine .after (steady_optionalWord _) fun ofTrait => .after (steady_require _) fun _ => ?_
        extract_lets behindOwner
        have owned (owner : TypeForm) (named : owner.Named)
            : Keeps (fun found => found.1.Named) (behindOwner owner) := by
          refine .after (by grind) fun _ => ?_
          refine (keeps_membersOf (keeps_implMember inside)).bind fun (more, found) members => ?_
          exact .ite (fun _ => .pure trivial) fun _ => .pure ⟨named.path?, members⟩
        exact .ite (fun _ => (inside.type true).bind owned) fun _ => Keeps.bind (.pure named) owned
      exact .ite (fun _ => .after (steady_mark _) marked) fun _ => marked ()
    refine .ite (fun _ => .after (by grind) fun _ => ?_) fun _ => constant ()
    exact .after (steady_keyword _) constant
  exact .ite (fun _ => .after (steady_genericParameters inside) generics) fun _ =>
    .after (steady_pure _) generics

/-- A trait keeps its name, since its members are read past, and a trait alias declares nothing. -/
theorem keeps_traitItem (inside : nested.Named) (attributes : List Attribute)
    : Keeps Item.Named (traitItem nested attributes) := by
  unfold traitItem
  refine .after (by grind) fun _ => .after (steady_sees _) fun plain => .after (by grind) fun _ => ?_
  refine .after (by grind) fun _ => .after (steady_keyword _) fun _ => ?_
  refine keeps_identifier.bind fun (name, line) token => .after (by grind) fun _ => ?_
  refine .after (steady_sees _) fun _ => .ite (fun _ => ?_) fun _ => ?_
  · refine .after (steady_mark _) fun _ => .after (by grind) fun _ => .after (by grind) fun _ => ?_
    exact .after (steady_mark _) fun _ => .pure trivial
  · refine .after (steady_supertraits inside) fun _ => .after (by grind) fun _ => ?_
    exact .after (steady_membersOf _) fun _ => .pure token

/-- A module keeps its name and its items. -/
theorem keeps_moduleItem (inside : nested.Named) (attributes : List Attribute)
    : Keeps Item.Named (moduleItem nested attributes) := by
  unfold moduleItem
  refine .after (by grind) fun _ => .after (by grind) fun _ => .after (steady_keyword _) fun _ => ?_
  refine .after (steady_sees _) fun _ => ?_
  extract_lets behind
  have read (word : String × Nat) (token : isToken word.1 = true)
      : Keeps Item.Named (behind word) := by
    refine .after (steady_sees _) fun _ => .ite (fun _ => ?_) fun _ => ?_
    · exact (keeps_membersOf inside.item).bind fun (more, body) named =>
        .pure ⟨token, Item.allNamed_iff.mpr named⟩
    · exact .after (steady_mark _) fun _ => .pure token
  exact .ite (fun _ => keeps_anyWord.bind read) fun _ => keeps_identifier.bind read

/-- A function keeps its signature. -/
theorem keeps_functionItem (inside : nested.Named) (attributes : List Attribute)
    : Keeps (fun found => found.1.Named) (functionItem nested attributes) := by
  unfold functionItem
  refine .after (by grind) fun _ => ?_
  refine (keeps_functionForm inside false).bind fun (found, more, hasBody) named => .pure ?_
  split
  · exact named
  · trivial

/-- A `use` keeps its trees. -/
theorem keeps_useItem (attributes : List Attribute)
    : Keeps (fun found => found.1.Named) (useItem attributes) := by
  unfold useItem
  refine .after steady_visibility fun visible => keeps_useForm.bind fun (rooted, tree?) named => ?_
  cases tree? with
  | none => exact .pure trivial
  | some tree => exact .pure (named tree rfl)

/-- An alias keeps its name. -/
theorem keeps_aliasItem (inside : nested.Named) (attributes : List Attribute)
    : Keeps (fun found => found.1.Named) (aliasItem nested attributes) := by
  unfold aliasItem
  refine .after (by grind) fun _ => (keeps_aliasForm inside _).bind fun read token => ?_
  exact .ite (fun _ => .pure token) fun _ => .pure trivial

/-- A constant or a static declares nothing that has a name. -/
theorem keeps_valueItem (inside : nested.Named) (attributes : List Attribute)
    : Keeps (fun found => found.1.Named) (valueItem nested attributes) := by
  unfold valueItem
  refine .after (by grind) fun _ => .after (steady_sees _) fun _ => .ite (fun _ => ?_) fun _ => ?_
  · exact .after (steady_staticForm inside _) fun (typed, valued) => .pure trivial
  · exact .after (steady_constantForm inside) fun (valued, isGeneric) => .pure trivial

/-- A declared type keeps its name. -/
theorem keeps_typeItem (inside : nested.Named) (attributes : List Attribute) (kind : TypeKind)
    (word : String) {body : Parser Unit} (steady : Steady body)
    : Keeps Item.Named (typeItem nested attributes kind word body) := by
  unfold typeItem
  refine .after (by grind) fun _ => ?_
  exact (keeps_typeForm inside word steady).bind fun (name, line) token => .pure token

/-- An item that is not printed as it stands is named all the same. -/
theorem Keeps.always {parser : Parser Item} (keeps : Keeps Item.Named parser)
    : Keeps (fun found => found.1.Named) (always parser) :=
  keeps.bind fun _ named => .pure named

/-- An item that declares nothing has no names. -/
theorem Steady.without {parser : Parser Unit} (steady : Steady parser) (attributes : List Attribute)
    : Keeps (fun found => found.1.Named) (without attributes parser) :=
  .after steady fun _ => .pure trivial

/-- Items that declare nothing are told by their first tokens. -/
theorem keeps_bareItem (attributes : List Attribute) (visible : Bool) (tokens : Tokens)
    : Keeps (fun found => found.1.Named) (bareItem nested attributes visible tokens) := by
  unfold bareItem
  refine .ite (fun _ => Steady.without (by grind) _) fun _ => ?_
  refine .ite (fun _ => Steady.without steady_foreignBlock _) fun _ => .ite (fun _ => ?_) fun _ => ?_
  · exact .after (by grind) fun _ => .after steady_macroDefinition fun _ => .pure trivial
  · exact .after (steady_require _) fun _ => Steady.without (steady_macroCall _) _

/-- So are all others, each of which keeps its names. -/
theorem keeps_itemForm (inside : nested.Named) (attributes : List Attribute) (visible : Bool)
    (tokens : Tokens)
    : Keeps (fun found => found.1.Named) (itemForm nested attributes visible tokens) := by
  unfold itemForm
  refine .ite (fun _ => keeps_functionItem inside attributes) fun _ => ?_
  refine .ite (fun _ => keeps_useItem attributes) fun _ => ?_
  refine .ite (fun _ => keeps_valueItem inside attributes) fun _ => ?_
  refine .ite (fun _ => .always (keeps_moduleItem inside attributes)) fun _ => ?_
  refine .ite (fun _ => keeps_aliasItem inside attributes) fun _ => ?_
  have type {kind : TypeKind} {word : String} {body : Parser Unit} (steady : Steady body)
      : Keeps (fun found => found.1.Named) (always (typeItem nested attributes kind word body)) :=
    .always (keeps_typeItem inside attributes kind word steady)
  refine .ite (fun _ => type (steady_structureBody inside)) fun _ => ?_
  refine .ite (fun _ => type (steady_enumerationBody inside)) fun _ => ?_
  refine .ite (fun _ => type (steady_unionBody inside)) fun _ => ?_
  refine .ite (fun _ => .always (keeps_traitItem inside attributes)) fun _ => ?_
  refine .ite (fun _ => keeps_implItem inside attributes) fun _ => ?_
  exact keeps_bareItem attributes visible tokens

/-- So an item is named, behind its attributes. -/
theorem keeps_item (inside : nested.Named)
    : Keeps Item.Named (item nested) := by
  refine Keeps.orKept (.after steady_outerAttributes fun attributes => ?_)
  refine .after (steady_behind _) fun tokens? => ?_
  cases tokens? with
  | none => exact .failure
  | some tokens =>
      exact .after (steady_sees _) fun visible => keeps_itemForm inside attributes visible tokens

/-- The items of a file are named one by one. -/
theorem keeps_fileItems (inside : nested.Named)
    : Keeps Item.AllNamed (fileItems nested) := by
  refine .after (steady_discard steady_innerAttributes) fun _ => ?_
  exact (keeps_item inside).untilEnd.imp fun items named => Item.allNamed_iff.mpr named

-----------------------------------------------------------------------------------------
-- The whole grammar
-----------------------------------------------------------------------------------------

/-- All parts keep to identifiers, by induction on how deep they lie inside one another. -/
theorem named_language (depth : Nat)
    : (language depth).Named := by
  induction depth with
  | zero => exact fun part => .failure
  | succ depth inside =>
      intro part
      cases part with
      | type plus => exact keeps_typeExpr inside plus
      | bound captures constants => exact steady_bound inside captures constants
      | expression braces => exact steady_expression inside braces
      | operand braces enclosed => exact steady_operand inside braces enclosed
      | operators left braces least => exact steady_operators inside left braces least
      | earlyExpression attributes => exact steady_earlyExpression inside attributes
      | statements => exact steady_statements inside
      | pattern => exact steady_singlePattern inside
      | item => exact keeps_item inside

/-- Tokens whose words are identifiers are read as items whose names are. -/
theorem allNamed_of_items? {tokens : Tokens} {items : List Item} (named : Token.AllNamed tokens)
    (found : items? tokens = some items)
    : Item.AllNamed items := by
  unfold items? Parser.all? at found
  split at found
  · rename_i read
    obtain rfl := Option.some.inj found
    exact (keeps_fileItems (named_language _) _ _ _ named read).2
  · contradiction

end Grammar

/-- All names that an index takes up of a text are identifiers. -/
theorem Item.allNamed_of_ofText? {text : String} {items : List Item}
    (found : Item.ofText? text = some items)
    : Item.AllNamed items := by
  obtain ⟨tokens, cut, read⟩ := Option.bind_eq_some_iff.mp found
  exact Grammar.allNamed_of_items? (Token.allNamed_of_ofChars? cut) read

end Wiring.Source
