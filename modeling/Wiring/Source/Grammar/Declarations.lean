import Wiring.Source.Grammar.Functions
import Wiring.Source.Grammar.Statements

/-! Parts of items: visibilities, imports, fields, and the declarations that stand among items and
among the members of traits and implementations.
-/

namespace Wiring.Source.Grammar

/-- A visibility, if one is written; tells whether there is one. Parentheses that hold anything else
belong to what follows.
-/
def visibility : Parser Bool := do
  if ← optionalWord "pub" then
    match ← front with
    | .group .paren inner :: _ =>
        if isOneOf ["crate", "self", "super"] inner then
          if inner.tail.isEmpty then discard anyGroup
        else if isWord "in" inner then
          group .paren do
            keyword "in"
            discard plainPath
    | _ => pure ()
    return true
  else return false

/-- A name or `_`. -/
def nameOrBlank : Parser (String × Nat) := do
  if ← sees (isWord "_") then anyWord else identifier

/-- The trees of an import. With `crateRoot`, a tree inside braces may start with `::`; an import
that holds such a tree is read but names nothing, and then there is no tree.
-/
def useTree (crateRoot : Bool) : Nat → Parser (Option UseTree)
  | 0 => failure
  | fuel + 1 => do
      let tokens ← front
      if isName tokens || isOneOf ["self", "super", "crate", "try"] tokens then
        let (name, _) ← anyWord
        if ← optionalMark "::" then
          let some tree ← useTree false fuel | failure
          return some (.inside name tree)
        else if ← optionalWord "as" then
          let (newName, _) ← nameOrBlank
          return some (.rename name newName)
        else return some (.name name)
      else if ← optionalMark "*" then return some .glob
      else
        let trees ← group .brace <| commaList do
          if crateRoot && (← optionalMark "::") then
            discard (useTree false fuel)
            return none
          else useTree crateRoot fuel
        if trees.any Option.isNone then return none
        else return some (.group (trees.filterMap id))

/-- An import, from its keyword on: whether it is rooted, and its tree. -/
def useForm : Parser (Bool × Option UseTree) := do
  keyword "use"
  let rooted ← optionalMark "::"
  let tree? ← useTree (!rooted) (Token.weightOf (← front))
  mark ";"
  return (rooted, tree?)

/-- The call of a macro, from its path on. With `named`, it may define a name. -/
def macroCall (named : Bool) : Parser Unit := do
  discard plainPath
  mark "!"
  if named && (← sees namesDefinition) then discard anyWord
  let (delimiter, _) ← anyGroup
  if delimiter ≠ .brace then mark ";"

variable (nested : Nested)

/-- Fields with names, in braces. A field without a name may have a type made up of such fields,
which is printed as it stands; `fuel` bounds how deep these lie.
-/
def namedFields : Nat → Parser Unit
  | 0 => failure
  | fuel + 1 =>
      group .brace <| discard <| commaList do
        discard (outerAttributes nested)
        discard visibility
        let (name, _) ← nameOrBlank
        mark ":"
        let tokens ← front
        if name = "_"
            && (isWord "struct" tokens || (isWord "union" tokens && isGroup .brace tokens.tail)) then
          asWritten do
            discard anyWord
            namedFields fuel
        else discard (nested.type true)

/-- The named fields in front, up to the last of them. -/
def fieldsInBraces : Parser Unit := do
  namedFields nested (Token.weightOf (← front))

/-- The fields of a tuple. -/
def fieldsInParentheses : Parser Unit :=
  group .paren <| discard <| commaList do
    discard (outerAttributes nested)
    discard visibility
    discard (nested.type true)

/-- A variant of an enumeration. Its visibility means nothing and is not printed. -/
def variant : Parser Unit := do
  discard (outerAttributes nested)
  discard (silently visibility)
  discard identifier
  if ← sees (isGroup .brace) then fieldsInBraces nested
  else if ← sees (isGroup .paren) then fieldsInParentheses nested
  if ← optionalMark "=" then
    discard (nested.expression true)

/-- The fields of a structure, from behind its generic parameters. -/
def structureBody : Parser Unit := do
  if ← sees (isGroup .paren) then
    fieldsInParentheses nested
    discard (whereClause nested)
    mark ";"
  else
    discard (whereClause nested)
    if ← sees (isGroup .brace) then fieldsInBraces nested else mark ";"

/-- What stands behind the name of a union. -/
def unionBody : Parser Unit := do
  discard (whereClause nested)
  fieldsInBraces nested

/-- What stands behind the name of an enumeration. -/
def enumerationBody : Parser Unit := do
  discard (whereClause nested)
  discard (group .brace (commaList (variant nested)))

/-- A structure, enumeration, or union, from its keyword on: its name, and the line it stands on. -/
def typeForm (word : String) (body : Parser Unit) : Parser (String × Nat) := do
  keyword word
  let (name, line) ← identifier
  discard (genericParameters nested)
  body
  return (name, line)

/-- Where an alias may have its where clause. -/
inductive WherePlace
  | beforeType
  | afterType
  | anywhere
  deriving DecidableEq

/-- An alias of a type as read. -/
structure ReadAlias where
  name : String
  line : Nat
  isBounded : Bool
  isDefined : Bool

/-- Whether the alias names a type and has no bounds. -/
def ReadAlias.isPlain (read : ReadAlias) : Bool :=
  read.isDefined && !read.isBounded

/-- Where the bounds of an alias end. -/
def endsAliasBounds (tokens : Tokens) : Bool :=
  isWord "where" tokens || isMark "=" tokens || isMark ";" tokens

/-- A type alias or associated type, from its keyword on. -/
def aliasForm (place : WherePlace) : Parser ReadAlias := do
  keyword "type"
  let (name, line) ← identifier
  discard (genericParameters nested)
  let isBounded ← sees (isMark ":")
  parameterBounds endsAliasBounds (nested.bound false true)
  let placed ← if place = .afterType then pure false else whereClause nested
  let isDefined ← optionalMark "="
  if isDefined then
    discard (nested.type true)
  if place = .afterType || (place = .anywhere && !placed) then
    discard (whereClause nested)
  mark ";"
  return { name, line, isBounded, isDefined }

/-- A constant, from its keyword on: whether it has a value, and whether it is generic. -/
def constantForm : Parser (Bool × Bool) := do
  keyword "const"
  discard nameOrBlank
  let generics ← genericParameters nested
  mark ":"
  discard (nested.type true)
  let valued ← optionalMark "="
  if valued then
    discard (nested.expression true)
  let conditional ← whereClause nested
  mark ";"
  return (valued, generics.isWritten || conditional)

/-- A static variable, from its keyword on; tells whether it has a type and a value. The type may be
missing when a value is there, and the value may be; a foreign variable has its type always.
-/
def staticForm (foreign : Bool) : Parser (Bool × Bool) := do
  keyword "static"
  discard (optionalWord "mut")
  discard identifier
  let typed := foreign || !(← sees (isMark "="))
  if typed then
    mark ":"
    discard (nested.type true)
  let valued ← optionalMark "="
  if valued then
    discard (nested.expression true)
  mark ";"
  return (typed, valued)

end Wiring.Source.Grammar
