import Wiring.Source.Grammar.Members
import Wiring.Source.Grammar.Paths

/-! Patterns. A pattern answers the name it binds as a whole. -/

namespace Wiring.Source.Grammar

variable (nested : Nested)

/-- Whether a pattern is a path or starts with one, and is no name of its own. -/
def startsPathPattern (tokens : Tokens) : Bool :=
  (isName tokens
      && (isMark "::" tokens.tail || isMark "!" tokens.tail || isGroup .brace tokens.tail
        || isGroup .paren tokens.tail || isMark ".." tokens.tail))
    || (isWord "self" tokens && isMark "::" tokens.tail)
    || isMark "::" tokens || isMark "<" tokens || isOneOf ["Self", "super", "crate"] tokens

/-- Whether a bar comes first that stands between two patterns. -/
def isAlternative (tokens : Tokens) : Bool :=
  isMark "|" tokens && !isMark "||" tokens && !isMark "|=" tokens

/-- Patterns with bars between them. -/
def alternatives : Parser PatternForm := do
  let led ← optionalMark "|"
  let first ← nested.pattern
  let others ←
    manyWhile isAlternative do
      mark "|"
      nested.pattern
  return if led || !others.isEmpty then .other else first

/-- Patterns between commas. -/
def patternList : Parser Unit :=
  discard (commaList (alternatives nested))

/-- Where a range has no end. -/
def endsRange (tokens : Tokens) : Bool :=
  tokens.isEmpty || isMark "|" tokens || isMark "=" tokens || isLoneColon tokens
    || isMark "," tokens || isMark ";" tokens || isWord "if" tokens

/-- A start or end of a range: a literal, a path, or a block in constants. Tells whether there is
one.
-/
def rangeBound : Parser Bool := do
  if ← sees endsRange then return false
  else
    if ← sees isLiteral then literal
    else if ← sees startsPath then discard (anyPath nested .expression)
    else
      keyword "const"
      attributedBlock nested
    return true

/-- The dots of a range in a pattern; tells whether its end belongs to it. An older form of the
closed range is printed in the newer one.
-/
def patternDots : Parser Bool := do
  if ← optionalMark "..=" then return true
  else if ← sees (isMark "...") then
    silently (mark "...")
    print (marksOf ['.', '.', '='])
    return true
  else
    mark ".."
    return false

/-- The dots of a range behind its start, and its end, which a closed range must have. -/
def rangeBehind : Parser PatternForm := do
  let closed ← patternDots
  let ended ← rangeBound nested
  require (ended || !closed)
  return if ended then .other else .openRange

/-- A range without a start, or the dots that leave out elements. -/
def rangeWithoutStart : Parser PatternForm := do
  let closed ← patternDots
  let ended ← rangeBound nested
  require (ended || !closed)
  return if ended then .openRange else .other

/-- A literal or a block in constants, or a range that starts with one. -/
def boundPattern : Parser PatternForm := do
  require (← rangeBound nested)
  if ← sees (isMark "..") then rangeBehind nested else return .other

/-- A field of a structure, behind its attributes: with a pattern, or a name that is bound. -/
def fieldPattern : Parser Unit := do
  discard <| asWrittenIf id do
    let boxed ← optionalWord "box"
    let shared ← optionalWord "ref"
    let changeable ← optionalWord "mut"
    if boxed || shared || changeable then discard identifier
    else
      let named ← member
      if !named || (← sees (isMark ":")) then
        mark ":"
        discard (alternatives nested)
    return boxed

/-- The fields of a structure. Behind the dots that leave out fields, nothing follows. -/
def fieldPatterns : Parser Unit :=
  discard <| commaList do
    discard (outerAttributes nested)
    if ← optionalMark ".." then require (← front).isEmpty
    else fieldPattern nested

/-- A path, and what it is the path of. -/
def pathPattern : Parser PatternForm := do
  let (qualified, read) ← anyPath nested .expression
  if !qualified && read.isPlain && (← sees isCallMark) then
    mark "!"
    discard anyGroup
    return .other
  else if ← sees (isGroup .brace) then
    group .brace (fieldPatterns nested)
    return .other
  else if ← sees (isGroup .paren) then
    group .paren (patternList nested)
    return .other
  else if ← sees (isMark "..") then rangeBehind nested
  else return .other

/-- A name, and the pattern that what it names must have. -/
def namePattern : Parser PatternForm := do
  discard (optionalWord "ref")
  discard (optionalWord "mut")
  let (name, _) ← if ← sees (isWord "self") then anyWord else identifier
  if ← optionalMark "@" then
    discard nested.pattern
  return .name name

/-- A pattern in an array. Without parentheses, a range has both ends. -/
def elementPattern : Parser Unit := do
  let form ← alternatives nested
  require (form ≠ .openRange)

/-- A pattern that is neither a path nor a name. -/
def otherPattern : Parser PatternForm := do
  let tokens ← front
  if isMark "&" tokens then
    mark "&"
    discard (optionalWord "mut")
    discard nested.pattern
    return .other
  else if isGroup .paren tokens then
    group .paren (patternList nested)
    return .other
  else if isGroup .bracket tokens then
    discard (group .bracket (commaList (elementPattern nested)))
    return .other
  else
    require (isMark ".." tokens && !isMark "..." tokens)
    rangeWithoutStart nested

/-- A pattern without bars outside of brackets. -/
def singlePattern : Parser PatternForm := do
  let tokens ← front
  if startsPathPattern tokens then pathPattern nested
  else if isWord "_" tokens then
    keyword "_"
    return .other
  else if isWord "box" tokens then
    asWritten do
      keyword "box"
      discard nested.pattern
    return .kept
  else if isMark "-" tokens || isLiteral tokens || isWord "const" tokens then boundPattern nested
  else if isOneOf ["ref", "mut", "self"] tokens || isName tokens then namePattern nested
  else otherPattern nested

end Wiring.Source.Grammar
