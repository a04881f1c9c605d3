import Wiring.Source.Grammar.Attributes

/-! Paths with type arguments, and the arguments themselves. -/

namespace Wiring.Source.Grammar

/-- Where a path stands. In expressions, arguments need a `::` before them; behind the path of a
trait, parentheses may give the arguments of a function.
-/
inductive PathPlace
  | type
  | expression
  | trait
  deriving DecidableEq, Repr

/-- A path as read. -/
structure ReadPath where
  path : TypePath
  /-- Whether no segment has angle brackets, be they empty. -/
  isPlain : Bool
  deriving Inhabited, Repr

/-- The path of segments, each with a note that holds of the path if it holds of all segments. -/
def ReadPath.ofSegments (rooted : Bool) (segments : List (PathSegment × Bool)) : ReadPath :=
  ⟨⟨rooted, segments.map Prod.fst⟩, segments.all Prod.snd⟩

/-- Whether the path's last segment has no arguments. -/
def ReadPath.endsBare (read : ReadPath) : Bool :=
  match read.path.segments.getLast? with
  | some last => last.arguments = .none
  | none => false

/-- An argument or parameter between angle brackets. -/
structure ListedArgument where
  isLifetime : Bool
  /-- The path of the type it is, if it is one and has no arguments of its own. -/
  path? : Option SpelledPath
  printed : Tokens
  comma : Bool
  deriving Inhabited, Repr

namespace ListedArgument

/-- How an argument of a list is printed, with the comma behind it. -/
def print (argument : ListedArgument) : Tokens :=
  argument.printed ++ (if argument.comma then [.mark ',' false] else [])

/-- Between two arguments a comma stands even if only a lifetime stood between them. -/
def withCommas : List ListedArgument → List ListedArgument
  | [] => []
  | [last] => [last]
  | first :: second :: rest => { first with comma := true } :: withCommas (second :: rest)

/-- Lifetimes are printed before all others, wherever they stand. -/
def printAll (arguments : List ListedArgument) : Tokens :=
  let (lifetimes, others) := arguments.partition isLifetime
  let separator : Tokens :=
    if lifetimes.getLast?.any (fun last => !last.comma) && !others.isEmpty then
      [.mark ',' false]
    else []
  lifetimes.flatMap print ++ separator ++ (withCommas others).flatMap print

/-- The arguments of a segment. Of several arguments, none is kept. -/
def pathArguments (arguments : List ListedArgument) : PathArguments :=
  match arguments with
  | [] => .none
  | [argument] =>
      match argument.path? with
      | some path => .lone path
      | none => .other
  | _ => .other

end ListedArgument

/-- The path of a type that is one and has no arguments. -/
def TypeForm.spelled? : TypeForm → Option SpelledPath
  | .path found => if found.hasArguments then none else some found.spelled
  | _ => none

/-- Whether a type consists of one name, arguments aside. -/
def TypeForm.isBareName : TypeForm → Bool
  | .path found => !found.rooted && found.segments.length = 1
  | _ => false

/-- Whether parentheses give the arguments of a function. -/
def startsCall (tokens : Tokens) : Bool :=
  isGroup .paren tokens || (isMark "::" tokens && isGroup .paren (tokens.drop 2))

/-- Whether angle brackets give the arguments of a segment. -/
def startsArguments (place : PathPlace) (tokens : Tokens) : Bool :=
  (place ≠ .expression && isMark "<" tokens && !isMark "<=" tokens && !isMark "<<=" tokens)
    || (isMark "::" tokens && isMark "<" (tokens.drop 2))

variable (nested : Nested)

/-- What may stand for a constant among type arguments: a literal, a name, or a block. -/
def constantArgument : Parser Unit := do
  if ← sees isLiteral then literal
  else if ← sees isName then discard identifier
  else attributedBlock nested

/-- The value that a named argument is given. -/
def argumentValue : Parser Unit := do
  if (← sees isLiteral) || (← sees (isGroup .brace)) then constantArgument nested
  else discard (nested.type true)

/-- Where the bounds of an argument end. -/
def endsArgument (tokens : Tokens) : Bool :=
  isMark "," tokens || isMark ">" tokens

/-- A lifetime, a constant, a type, or a named type that is given or bounded. Tells whether it is a
lifetime, and the path of the type that it is.
-/
def genericArgument : Parser (Bool × Option SpelledPath) := do
  let tokens ← front
  if isLifetime tokens && !isMark "+" (tokens.drop 2) then
    lifetime
    return (true, none)
  else if isLiteral tokens || isGroup .brace tokens then
    constantArgument nested
    return (false, none)
  else
    let type ← nested.type true
    if !type.isBareName then return (false, type.spelled?)
    else if ← optionalMark "=" then
      argumentValue nested
      return (false, none)
    else if ← optionalMark ":" then
      discard (joined endsArgument "+" (nested.bound false true))
      return (false, none)
    else return (false, type.spelled?)

/-- Arguments in angle brackets, a `::` before them or not. -/
def genericArguments : Parser PathArguments := do
  discard (optionalMark "::")
  mark "<"
  let found ← silently (separated (isMark ">") "," (captured (genericArgument nested)))
  let arguments := found.map fun (((isLifetime, path?), printed), comma) =>
    ListedArgument.mk isLifetime path? printed comma
  print (ListedArgument.printAll arguments)
  mark ">"
  return ListedArgument.pathArguments arguments

/-- One segment; tells whether it is free of angle brackets. Empty ones are not printed where
parentheses take their place.
-/
def segment (place : PathPlace) : Parser (PathSegment × Bool) := do
  if ← sees (isOneOf ["super", "self", "crate", "try"]) then
    let (name, _) ← anyWord
    return (⟨name, .none⟩, true)
  else
    let (name, _) ← if ← sees (isWord "Self") then anyWord else identifier
    if ← sees (startsArguments place) then
      let (arguments, printed) ← captured (genericArguments nested)
      let replaced := place = .trait && arguments = .none && (← sees startsCall)
      print (if replaced then [] else printed)
      return (⟨name, arguments⟩, false)
    else return (⟨name, .none⟩, true)

/-- Segments with `::` between them. -/
def path (place : PathPlace) : Parser ReadPath := do
  let rooted ← optionalMark "::"
  let first ← segment nested place
  let others ←
    manyWhile (fun tokens => isMark "::" tokens && !isGroup .paren (tokens.drop 2)) do
      mark "::"
      segment nested place
  return .ofSegments rooted (first :: others)

/-- A path that starts with a type in angle brackets; only what follows them is kept. -/
def memberPath (place : PathPlace) : Parser ReadPath := do
  mark "<"
  discard (nested.type true)
  if ← optionalWord "as" then
    discard (path nested .type)
  mark ">"
  mark "::"
  let first ← segment nested place
  let others ←
    manyWhile (isMark "::") do
      mark "::"
      segment nested place
  return .ofSegments false (first :: others)

/-- A path, and whether it starts with a type in angle brackets. -/
def anyPath (place : PathPlace) : Parser (Bool × ReadPath) := do
  if ← sees (isMark "<") then
    let read ← memberPath nested place
    return (true, read)
  else
    let read ← path nested place
    return (false, read)

/-- The type that is returned, if one is. -/
def returnType (plus : Bool) : Parser Unit := do
  if ← optionalMark "->" then
    discard (nested.type plus)

/-- The arguments in parentheses of a trait of functions, and what it returns. -/
def callArguments : Parser Unit := do
  discard (group .paren (commaList (nested.type true)))
  returnType nested false

/-- The path of a trait. -/
def traitPath : Parser Unit := do
  let read ← path nested .trait
  if read.endsBare && (← sees startsCall) then
    discard (silently (optionalMark "::"))
    callArguments nested

end Wiring.Source.Grammar
