import Wiring.Source.Grammar.Part

/-! Attributes, and the blocks that may start with some. -/

namespace Wiring.Source.Grammar

/-- Whether a name or path word comes first. -/
def isSegment (tokens : Tokens) : Bool :=
  isName tokens || isOneOf pathWords tokens

/-- The segments of a path without arguments, from behind its leading `::`. -/
def plainSegments : Nat → Parser (List String)
  | 0 => failure
  | fuel + 1 => do
      require (← sees isSegment)
      let (name, _) ← anyWord
      if ← optionalMark "::" then
        let names ← plainSegments fuel
        return name :: names
      else return [name]

/-- A path without arguments: whether it is rooted, and its segments. -/
def plainPath : Parser (Bool × List String) := do
  let rooted ← optionalMark "::"
  let names ← plainSegments (← front).length
  return (rooted, names)

variable (nested : Nested)

/-- The inside of an attribute: a path, and a bracketed input, a value, or nothing. -/
def attributeContents : Parser Attribute := do
  let (rooted, path) ←
    if ← optionalWord "unsafe" then pure (false, ["unsafe"]) else plainPath
  if ← sees isAnyGroup then
    let (_, inner) ← anyGroup
    return ⟨rooted, path, .group inner⟩
  else if ← optionalMark "=" then
    let value ← front
    require (!(isMark "#" value && isGroup .bracket value.tail))
    discard (nested.expression true)
    return ⟨rooted, path, .value⟩
  else return ⟨rooted, path, .none⟩

/-- An attribute of what stands behind it. -/
def outerAttribute : Parser Attribute := do
  mark "#"
  group .bracket (attributeContents nested)

/-- An attribute of what it stands in. -/
def innerAttribute : Parser Attribute := do
  mark "#"
  mark "!"
  group .bracket (attributeContents nested)

/-- The attributes in front of what they are for. -/
def outerAttributes : Parser (List Attribute) :=
  manyWhile (isMark "#") (outerAttribute nested)

/-- The attributes at the start of what they are for. -/
def innerAttributes : Parser (List Attribute) :=
  manyWhile (fun tokens => isMark "#" tokens && isMark "!" tokens.tail) (innerAttribute nested)

/-- A block of statements. -/
def block : Parser Unit :=
  group .brace nested.statements

/-- A block that may start with attributes. -/
def attributedBlock : Parser Unit :=
  group .brace do
    discard (innerAttributes nested)
    nested.statements

end Wiring.Source.Grammar
