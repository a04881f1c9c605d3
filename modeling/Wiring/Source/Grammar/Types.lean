import Wiring.Source.Grammar.Generics

/-! Types. A type answers which path it is, or whether it is one trait that parentheses around it
turn into a bound.
-/

namespace Wiring.Source.Grammar

variable (nested : Nested)

/-- Bounds with plus signs between them, if `plus` admits any; the last one may be followed by a
plus sign.
-/
def boundSum (plus captures constants : Bool) : Nat → Parser (List BoundForm)
  | 0 => failure
  | fuel + 1 => do
      let first ← nested.bound captures constants
      if plus && (← sees (isMark "+")) then
        mark "+"
        if ← sees (startsBound constants) then
          let others ← boundSum plus captures constants fuel
          return first :: others
        else return [first]
      else return [first]

/-- Bounds, one of which is a trait. -/
def traitSum (plus captures constants : Bool) : Parser Unit := do
  let bounds ← boundSum nested plus captures constants (← front).length
  require (bounds.any BoundForm.isTrait)

/-- Further bounds, each behind its plus sign; behind the last sign there may be none. -/
def furtherBounds : Parser Unit :=
  discard <| manyWhile (isMark "+") do
    mark "+"
    if ← sees (startsBound false) then
      discard (nested.bound false false)

/-- Further bounds, each behind its plus sign. -/
def strictBounds : Parser Unit :=
  discard <| manyWhile (isMark "+") do
    mark "+"
    discard (nested.bound false false)

/-- The bounds behind a trait that stands in place of a type. -/
def traitBehind (tokens : Tokens) (bounds : Parser Unit) : Parser TypeForm := do
  if ← sees (isMark "+") then
    bounds
    return .other
  else return .loneTrait tokens

/-- A path, the call of a macro, or a sum of bounds that starts with a trait. `binder` is what the
trait is for; a macro is printed without it.
-/
def pathType (plus : Bool) (binder : Tokens) : Parser TypeForm := do
  let ((qualified, read), printed) ← captured (anyPath nested .type)
  if qualified then
    print printed
    return .other
  else if read.isPlain && (← sees isCallMark) then
    print printed
    mark "!"
    discard anyGroup
    return .other
  else
    print (binder ++ printed)
    if plus && (← sees (isMark "+")) then
      furtherBounds nested
      return .other
    else return if binder.isEmpty then .path read.path else .loneTrait (binder ++ printed)

/-- An argument in the type of a function. A changeable `self`, admitted as the first argument, is
printed as it stands.
-/
def pointerArgument (isFirst : Bool) : Parser Bool :=
  asWrittenIf id do
    let startsChangeable := fun tokens => isFirst && isWord "mut" tokens && isWord "self" tokens.tail
    let changeable ← sees startsChangeable
    if changeable then keyword "mut"
    let tokens ← front
    let owned := isFirst && isWord "self" tokens
    let named := (isName tokens || isWord "_" tokens || owned) && isLoneColon tokens.tail
    if named then
      discard anyWord
      mark ":"
    if !(owned && named) && startsChangeable (← front) then
      keyword "mut"
      keyword "self"
      return true
    else if changeable && !named then
      keyword "self"
      return true
    else
      discard (nested.type true)
      return changeable

/-- Whether the argument at the front stands for any number of them. -/
def isVariadic (tokens : Tokens) : Bool :=
  isMark "..." tokens
    || ((isName tokens || isWord "_" tokens) && isMark ":" tokens.tail && isMark "..." (tokens.drop 2))

/-- The arguments in the type of a function. -/
def pointerArguments (isFirst : Bool) : Nat → Parser Unit
  | 0 => return
  | fuel + 1 => do
      unless (← front).isEmpty do
        discard (outerAttributes nested)
        if ← sees isVariadic then
          if ← sees isAnyWord then
            discard anyWord
            mark ":"
          mark "..."
          discard (optionalMark ",")
        else
          discard (pointerArgument nested isFirst)
          unless (← front).isEmpty do
            mark ","
            pointerArguments false fuel

/-- The name of a foreign calling convention, if one is given. -/
def convention : Parser Unit := do
  if ← optionalWord "extern" then
    if ← sees isText then literal

/-- The type of a function. -/
def functionPointer : Parser Unit := do
  discard (optionalWord "unsafe")
  convention
  keyword "fn"
  group .paren do
    pointerArguments nested true (← front).length
  returnType nested false

/-- A type that parameters in front of it are for. -/
def quantifiedType (plus : Bool) : Parser TypeForm := do
  let ((), binder) ← captured (boundParameters nested)
  if ← sees (isOneOf ["fn", "unsafe", "extern"]) then
    print binder
    functionPointer nested
    return .other
  else
    require (← sees isSegment)
    pathType nested plus binder

/-- A type that the compiler provides, printed as it stands. -/
def builtinType : Parser Unit :=
  asWritten do
    keyword "builtin"
    mark "#"
    discard identifier
    group .paren everything

/-- The inside of parentheses around types: the only type, if no comma follows it. -/
def typeTuple : Parser (Option TypeForm) := do
  let first ← nested.type true
  if (← front).isEmpty then return some first
  else
    mark ","
    discard (commaList (nested.type true))
    return none

/-- Types in parentheses: a tuple, a type, or the first bound of a sum. -/
def tupleType (plus : Bool) : Parser TypeForm := do
  let (only?, printed) ← captured (group .paren (typeTuple nested))
  if plus && (← sees (isMark "+")) then
    match only? with
    | some (.path _) =>
        print printed
        strictBounds nested
    | some (.loneTrait tokens) =>
        print [.group .paren tokens]
        strictBounds nested
    | _ => print printed
  else print printed
  return .other

/-- A type that starts with parentheses. -/
def parenType (plus : Bool) (inner : Tokens) : Parser TypeForm := do
  if inner.isEmpty then
    group .paren (return)
    return .other
  else if isLifetime inner then
    group .paren (traitSum nested true false false)
    return .other
  else if isMark "?" inner then
    let (_, printed) ← group .paren do
      let (constant, printed) ← captured (traitBound nested false)
      print printed
      return (constant, printed)
    traitBehind printed (strictBounds nested)
  else tupleType nested plus

/-- An array, or a slice. -/
def sequenceType : Parser Unit :=
  group .bracket do
    discard (nested.type true)
    if ← optionalMark ";" then
      discard (nested.expression true)

/-- An object of some traits. One with a star is printed as it stands. -/
def objectType (plus : Bool) : Parser Unit :=
  discard <| asWrittenIf id do
    keyword "dyn"
    let starred ← optionalMark "*"
    traitSum nested plus false false
    return starred

/-- A pointer to a type. -/
def pointerType : Parser Unit := do
  mark "*"
  if !(← optionalWord "mut") then keyword "const"
  discard (nested.type false)

/-- A reference to a type. -/
def referenceType : Parser Unit := do
  mark "&"
  if ← sees isLifetime then lifetime
  discard (optionalWord "mut")
  discard (nested.type false)

/-- A type that is neither a path nor in brackets. -/
def keywordType (plus : Bool) : Parser Unit := do
  let tokens ← front
  if isOneOf ["fn", "unsafe", "extern"] tokens then functionPointer nested
  else if isWord "dyn" tokens then objectType nested plus
  else if isMark "*" tokens then pointerType nested
  else if isMark "&" tokens then referenceType nested
  else if isMark "!" tokens then mark "!"
  else if isWord "impl" tokens then
    keyword "impl"
    traitSum nested plus true true
  else if isWord "_" tokens then keyword "_"
  else if isLifetime tokens then traitSum nested true false false
  else failure

/-- A type. With `plus` it may be a sum of bounds. -/
def typeExpr (plus : Bool) : Parser TypeForm := do
  let tokens ← front
  match tokens with
  | .group .paren inner :: _ => parenType nested plus inner
  | .group .bracket _ :: _ =>
      sequenceType nested
      return .other
  | _ =>
      if isWord "for" tokens then quantifiedType nested plus
      else if isWord "builtin" tokens && isMark "#" tokens.tail then
        builtinType
        return .other
      else if startsPath tokens then pathType nested plus []
      else
        keywordType nested plus
        return .other

/-- A type as it is kept: with its printed text. -/
def writtenType : Parser TypeExpr := do
  let (form, printed) ← captured (nested.type true)
  print printed
  return ⟨form.path?, Token.textOf printed⟩

end Wiring.Source.Grammar
