import Wiring.Source.Grammar.Paths

/-! Bounds, generic parameters, and where clauses. -/

namespace Wiring.Source.Grammar

/-- What may begin another bound behind a plus sign. -/
def startsBound (constants : Bool) (tokens : Tokens) : Bool :=
  isAnyWord tokens || isMark "::" tokens || isMark "?" tokens || isLifetime tokens
    || isGroup .paren tokens || (constants && isGroup .bracket tokens)

/-- Whether a generic parameter list comes first, and not a type in angle brackets. -/
def startsParameters (tokens : Tokens) : Bool :=
  let second := tokens.tail
  let third := behindOne second
  isMark "<" tokens
    && (isMark ">" second || isMark "#" second
      || ((isLifetime second || isName second)
        && (isMark ">" third || isMark "," third || isLoneColon third || isMark "=" third))
      || isWord "const" second)

/-- Where the bounds of a lifetime parameter end. -/
def endsLifetimeParameter (tokens : Tokens) : Bool :=
  isMark "," tokens || isMark ">" tokens

/-- Where the bounds of a type parameter end. -/
def endsTypeParameter (tokens : Tokens) : Bool :=
  endsLifetimeParameter tokens || isMark "=" tokens

/-- Where a where clause ends, and the bounds in it. -/
def endsWhere (tokens : Tokens) : Bool :=
  tokens.isEmpty || isGroup .brace tokens || isMark "," tokens || isMark ";" tokens
    || isLoneColon tokens || isMark "=" tokens

/-- Where the bounds of a lifetime in a where clause end. -/
def endsOutlived (tokens : Tokens) : Bool :=
  endsWhere tokens || isMark ":" tokens

/-- A colon and the bounds behind it; without bounds, nothing is printed. -/
def parameterBounds (ends : Tokens → Bool) (bound : Parser α) : Parser Unit := do
  if ← sees (isMark ":") then
    let (found, printed) ← captured do
      mark ":"
      joined ends "+" bound
    print (if found.isEmpty then [] else printed)

variable (nested : Nested)

/-- One generic parameter: a lifetime, a constant, or a type; tells whether it is a lifetime. With
`blank` it may be `_`.
-/
def genericParameter (blank : Bool) : Parser Bool := do
  discard (outerAttributes nested)
  if ← sees isLifetime then
    lifetime
    parameterBounds endsLifetimeParameter lifetime
    return true
  else if ← optionalWord "const" then
    discard identifier
    mark ":"
    discard (nested.type true)
    if ← optionalMark "=" then
      constantArgument nested
    return false
  else if blank && (← sees (isWord "_")) then
    discard anyWord
    return false
  else
    discard identifier
    parameterBounds endsTypeParameter (nested.bound false true)
    if ← optionalMark "=" then
      discard (nested.type true)
    return false

/-- Parameters that what follows is for: `for<'a, 'b>`. -/
def boundParameters : Parser Unit := do
  keyword "for"
  mark "<"
  discard (separated (isMark ">") "," (genericParameter nested false))
  mark ">"

/-- Generic parameters as read. -/
structure ReadParameters where
  /-- Whether angle brackets are there. -/
  isWritten : Bool
  /-- Whether a parameter is there. -/
  isGeneric : Bool
  deriving Inhabited, Repr

/-- Generic parameters in angle brackets, which are not printed when they are empty. -/
def bracketedParameters : Parser ReadParameters := do
  let found ← silently do
    mark "<"
    let found ← separated (isMark ">") "," (captured (genericParameter nested true))
    mark ">"
    return found
  let parameters := found.map fun ((isLifetime, printed), comma) =>
    ListedArgument.mk isLifetime none printed comma
  unless parameters.isEmpty do
    print (.mark '<' false :: ListedArgument.printAll parameters ++ [.mark '>' false])
  return ⟨true, !parameters.isEmpty⟩

/-- The generic parameters behind a name, if there are any. -/
def genericParameters : Parser ReadParameters := do
  if ← sees (isMark "<") then bracketedParameters nested else return ⟨false, false⟩

/-- One condition of a where clause. -/
def wherePredicate : Parser Unit := do
  let tokens ← front
  if isLifetime tokens && isMark ":" (tokens.drop 2) then
    lifetime
    mark ":"
    discard (joined endsOutlived "+" lifetime)
  else
    if isWord "for" tokens then boundParameters nested
    discard (nested.type true)
    mark ":"
    discard (joined endsWhere "+" (nested.bound false true))

/-- The where clause, if there is one; tells whether it is there. One that asks for nothing is not
printed.
-/
def whereClause : Parser Bool := do
  if ← sees (isWord "where") then
    let (found, printed) ← captured do
      keyword "where"
      require (!(← sees startsParameters))
      joined endsWhere "," (wherePredicate nested)
    print (if found.isEmpty then [] else printed)
    return true
  else return false

/-- Names between angle brackets that an opaque type makes use of. -/
def capturedNames : Parser Unit := do
  keyword "use"
  mark "<"
  let found ← silently (separated (isMark ">") "," (captured capturedName))
  let names := found.map fun ((isLifetime, printed), comma) =>
    ListedArgument.mk isLifetime none printed comma
  print (ListedArgument.printAll names)
  mark ">"
where
  capturedName : Parser Bool := do
    if ← sees isLifetime then
      lifetime
      return true
    else
      discard (if ← sees (isWord "Self") then anyWord else identifier)
      return false

/-- The mark of a trait that holds in constants: `const` or `[const]`. -/
def constantMark : Parser Bool := do
  if ← sees (isGroup .bracket) then
    group .bracket (keyword "const")
    return true
  else optionalWord "const"

/-- A trait as a bound, without parentheses; tells whether it is one that holds in constants. -/
def traitBound (constants : Bool) : Parser Bool := do
  let quantified ← sees (isWord "for")
  if quantified then boundParameters nested
  let constant ← constantMark
  require (constants || !constant)
  let relaxed ← optionalMark "?"
  require (!(quantified && relaxed))
  traitPath nested
  return constant

/-- A trait as a bound, in parentheses or not. -/
def enclosedTraitBound (constants : Bool) : Parser BoundForm := do
  let contents := do
    let (constant, printed) ← captured (traitBound nested constants)
    print printed
    return if constant then BoundForm.constant else BoundForm.plainTrait printed
  if ← sees (isGroup .paren) then group .paren contents else contents

/-- One bound: a lifetime, captured names, or a trait. A trait that holds in constants is printed as
it stands.
-/
def bound (captures constants : Bool) : Parser BoundForm := do
  if ← sees isLifetime then
    lifetime
    return .lifetime
  else if ← sees (isWord "use") then
    require captures
    capturedNames
    return .capture
  else
    asWrittenIf (fun form => form matches .constant) (enclosedTraitBound nested constants)

end Wiring.Source.Grammar
