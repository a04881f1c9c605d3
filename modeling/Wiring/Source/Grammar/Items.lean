import Wiring.Source.Grammar.Declarations

/-! Items, and the members of traits and implementations. An item starts with its attributes; those
at the start of its body are its own as well. Forms that only another version of the language knows
are read as items that declare nothing, and are printed as they stand.
-/

namespace Wiring.Source.Grammar

variable (nested : Nested)

/-- A member of an implementation. A function without body declares nothing. -/
def implMember : Parser Member :=
  orKept do
    let attributes ← outerAttributes nested
    let visible ← visibility
    let tokens ← front
    let isDefault := isWord "default" tokens && !isMark "!" tokens.tail
    if isDefault then keyword "default"
    let tokens ← front
    if startsSignature false tokens then
      let (found, more, hasBody) ← functionForm nested false
      let member := if hasBody then .function (attributes ++ more) found else .other attributes
      return (member, !hasBody)
    else if isWord "const" tokens then
      let (valued, isGeneric) ← constantForm nested
      return (.other attributes, !valued || isGeneric)
    else if isWord "type" tokens then
      let read ← aliasForm nested .afterType
      return (.other attributes, !read.isPlain)
    else
      require (!visible && !isDefault && startsItemPath tokens)
      macroCall false
      return (.other attributes, false)

/-- A member of a trait. -/
def traitMember : Parser Member :=
  orKept do
    let attributes ← outerAttributes nested
    let visible ← visibility
    let isDefault ← optionalWord "default"
    let tokens ← front
    let isForeign := visible || isDefault
    if startsSignature false tokens then
      let (found, more, _) ← functionForm nested false
      let member := if isForeign then .other attributes else .function (attributes ++ more) found
      return (member, isForeign)
    else if isWord "const" tokens then
      let (_, isGeneric) ← constantForm nested
      return (.other attributes, isForeign || isGeneric)
    else if isWord "type" tokens then
      discard (aliasForm nested .afterType)
      return (.other attributes, isForeign)
    else
      require (!isForeign && startsItemPath tokens)
      macroCall false
      return (.other attributes, false)

/-- A variable in a block of foreign declarations; tells whether it is marked as safe or not. -/
def foreignVariable : Parser Bool := do
  let tokens ← front
  let marked := isOneOf ["unsafe", "safe"] tokens
  if marked then discard anyWord
  let (_, valued) ← staticForm nested true
  return marked || valued

/-- A member of a block of foreign declarations. -/
def foreignMember : Parser Unit :=
  orKept do
    discard (outerAttributes nested)
    let visible ← visibility
    let tokens ← front
    if startsSignature true tokens then
      let (_, _, hasBody) ← functionForm nested true
      let qualified := skipWord "async" (skipWord "const" tokens)
      return ((), hasBody || isWord "safe" qualified)
    else if isWord "static" tokens
        || (isOneOf ["unsafe", "safe"] tokens && isWord "static" tokens.tail) then
      let kept ← foreignVariable nested
      return ((), kept)
    else if isWord "type" tokens then
      let read ← aliasForm nested .anywhere
      return ((), read.isBounded || read.isDefined)
    else
      require (!visible && startsItemPath tokens)
      macroCall false
      return ((), false)

/-- A body in braces: the attributes at its start, and its members. -/
def membersOf (member : Parser α) : Parser (List Attribute × List α) :=
  group .brace do
    let attributes ← innerAttributes nested
    let found ← untilEnd member
    return (attributes, found)

/-- An implementation, from behind its attributes. -/
def implItem (attributes : List Attribute) : Parser (Item × Bool) := do
  let visible ← visibility
  discard (optionalWord "default")
  discard (optionalWord "unsafe")
  keyword "impl"
  let generics ←
    if ← sees startsParameters then genericParameters nested else pure ⟨false, false⟩
  let tokens ← front
  let isConst := isWord "const" tokens || (isMark "?" tokens && isWord "const" tokens.tail)
  if isConst then
    discard (optionalMark "?")
    keyword "const"
  let tokens ← front
  let negative := isMark "!" tokens && !isGroup .brace tokens.tail
  if negative then mark "!"
  let first ← nested.type true
  let ofTrait ← optionalWord "for"
  require (ofTrait || !negative)
  let owner ← if ofTrait then nested.type true else pure first
  discard (whereClause nested)
  let (more, found) ← membersOf nested (implMember nested)
  if visible || isConst || (ofTrait && first.path?.isNone) then return (.other attributes, true)
  else
    let block : ImplBlock := ⟨generics.isGeneric, ofTrait, owner.path?, found⟩
    return (.implementation (attributes ++ more) block, false)

/-- Where the bounds of a trait end. -/
def endsTraitBounds (tokens : Tokens) : Bool :=
  isWord "where" tokens || isGroup .brace tokens

/-- Where the traits end that an alias stands for. -/
def endsTraitAlias (tokens : Tokens) : Bool :=
  isWord "where" tokens || isMark ";" tokens

/-- The traits that a trait builds upon. -/
def supertraits : Parser Unit := do
  if ← sees (isMark ":") then
    let (found, printed) ← captured do
      mark ":"
      separated endsTraitBounds "+" (nested.bound false true)
    print (if found.isEmpty then [] else printed)

/-- A trait, or an alias of some, from behind its attributes. -/
def traitItem (attributes : List Attribute) : Parser Item := do
  discard visibility
  let plain ← sees (isWord "trait")
  discard (optionalWord "unsafe")
  discard (optionalWord "auto")
  keyword "trait"
  let (name, line) ← identifier
  discard (genericParameters nested)
  if plain && (← sees (isMark "=")) then
    mark "="
    discard (separated endsTraitAlias "+" (nested.bound false false))
    discard (whereClause nested)
    mark ";"
    return .other attributes
  else
    supertraits nested
    discard (whereClause nested)
    let (more, found) ← membersOf nested (traitMember nested)
    return .trait (attributes ++ more) name line found

/-- A block of foreign declarations. -/
def foreignBlock : Parser Unit := do
  discard (optionalWord "unsafe")
  require (← sees (isWord "extern"))
  convention
  discard (membersOf nested (foreignMember nested))

/-- The import of another crate, from its keywords on. -/
def crateImport : Parser Unit := do
  keyword "extern"
  keyword "crate"
  discard (if ← sees (isWord "self") then anyWord else identifier)
  if ← optionalWord "as" then
    discard nameOrBlank
  mark ";"

/-- A macro definition, from its keyword on. -/
def macroDefinition : Parser Unit := do
  keyword "macro"
  discard identifier
  if ← sees (isGroup .paren) then discard anyGroup
  group .brace everything

/-- A module, from behind its attributes. -/
def moduleItem (attributes : List Attribute) : Parser Item := do
  discard visibility
  discard (optionalWord "unsafe")
  keyword "mod"
  let (name, _) ← if ← sees (isWord "try") then anyWord else identifier
  if ← sees (isGroup .brace) then
    let (more, body) ← membersOf nested nested.item
    return .submodule (attributes ++ more) name body
  else
    mark ";"
    return .fileModule attributes name

/-- A function, from behind its attributes. Without body it declares nothing. -/
def functionItem (attributes : List Attribute) : Parser (Item × Bool) := do
  discard visibility
  let (found, more, hasBody) ← functionForm nested false
  return (if hasBody then .function (attributes ++ more) found else .other attributes, !hasBody)

/-- An import, from behind its attributes. -/
def useItem (attributes : List Attribute) : Parser (Item × Bool) := do
  let visible ← visibility
  match ← useForm with
  | (rooted, some tree) => return (.imports attributes visible rooted tree, false)
  | (_, none) => return (.other attributes, true)

/-- An alias of a type, from behind its attributes. -/
def aliasItem (attributes : List Attribute) : Parser (Item × Bool) := do
  discard visibility
  let read ← aliasForm nested .beforeType
  if read.isPlain then return (.type attributes .typeAlias read.name read.line, false)
  else return (.other attributes, true)

/-- A constant or static variable, from behind its attributes. -/
def valueItem (attributes : List Attribute) : Parser (Item × Bool) := do
  discard visibility
  if ← sees (isWord "static") then
    let (typed, valued) ← staticForm nested false
    return (.other attributes, !(typed && valued))
  else
    let (valued, isGeneric) ← constantForm nested
    return (.other attributes, !valued || isGeneric)

/-- A structure, enumeration, or union, from behind its attributes. -/
def typeItem (attributes : List Attribute) (kind : TypeKind) (word : String) (body : Parser Unit)
    : Parser Item := do
  discard visibility
  let (name, line) ← typeForm nested word body
  return .type attributes kind name line

/-- Whether a trait comes first, after any of the words that may qualify it. -/
def startsTrait (tokens : Tokens) : Bool :=
  isWord "trait" tokens || (isWord "auto" tokens && isWord "trait" tokens.tail)

/-- An item that declares nothing and is printed by its parts. -/
def without (attributes : List Attribute) (parser : Parser Unit) : Parser (Item × Bool) := do
  parser
  return (.other attributes, false)

/-- An item that is never printed as it stands. -/
def always (parser : Parser Item) : Parser (Item × Bool) := do
  let item ← parser
  return (item, false)

/-- An item that declares nothing: foreign declarations, the import of a crate, and the definition
or call of a macro.
-/
def bareItem (attributes : List Attribute) (visible : Bool) (tokens : Tokens)
    : Parser (Item × Bool) := do
  if isWord "extern" tokens && isWord "crate" tokens.tail then
    without attributes do
      discard visibility
      crateImport
  else if isWord "extern" tokens || (isWord "unsafe" tokens && isWord "extern" tokens.tail) then
    without attributes (foreignBlock nested)
  else if isWord "macro" tokens then
    discard visibility
    macroDefinition
    return (.other attributes, true)
  else
    require (!visible && startsItemPath tokens)
    without attributes (macroCall true)

/-- An item behind its attributes; `tokens` is what follows its visibility. -/
def itemForm (attributes : List Attribute) (visible : Bool) (tokens : Tokens)
    : Parser (Item × Bool) :=
  let second := tokens.tail
  if startsSignature false tokens then functionItem nested attributes
  else if isWord "use" tokens then useItem attributes
  else if isOneOf ["static", "const"] tokens then valueItem nested attributes
  else if isWord "mod" tokens || (isWord "unsafe" tokens && isWord "mod" second) then
    always (moduleItem nested attributes)
  else if isWord "type" tokens then aliasItem nested attributes
  else if isWord "struct" tokens then
    always (typeItem nested attributes .struct "struct" (structureBody nested))
  else if isWord "enum" tokens then
    always (typeItem nested attributes .enumeration "enum" (enumerationBody nested))
  else if isWord "union" tokens && isName second then
    always (typeItem nested attributes .union "union" (unionBody nested))
  else if startsTrait tokens || (isWord "unsafe" tokens && startsTrait second) then
    always (traitItem nested attributes)
  else if isWord "impl" tokens || (isWord "unsafe" tokens && isWord "impl" second)
      || (isWord "default" tokens && !isMark "!" second) then
    implItem nested attributes
  else bareItem nested attributes visible tokens

/-- One item. -/
def item : Parser Item :=
  orKept do
    let attributes ← outerAttributes nested
    let some tokens ← behind (discard visibility) | failure
    let visible ← sees (isWord "pub")
    itemForm nested attributes visible tokens

/-- The items of a file, behind the attributes of the file. -/
def fileItems : Parser (List Item) := do
  discard (innerAttributes nested)
  untilEnd (item nested)

end Wiring.Source.Grammar
