import Wiring.Source.Grammar.Types
import Wiring.Source.Grammar.Patterns

/-! The signatures of functions, and their bodies. -/

namespace Wiring.Source.Grammar

/-- Whether a signature comes first, after any of the words that may qualify it. -/
def startsSignature (safe : Bool) (tokens : Tokens) : Bool :=
  let rest := skipWord "async" (skipWord "const" tokens)
  let rest := if safe && isWord "safe" rest then rest.tail else skipWord "unsafe" rest
  isWord "fn" (skipConvention rest)

/-- What one argument of a signature declares. -/
inductive Argument
  | receiver
  | parameter (parameter : FunctionParameter)
  | variadic

/-- The arguments of a signature: a receiver stands first, a variadic argument last. -/
def readArguments : List Argument → Option (Bool × List FunctionParameter)
  | .receiver :: rest => (parametersOf rest).map fun parameters => (true, parameters)
  | rest => (parametersOf rest).map fun parameters => (false, parameters)
where
  parametersOf : List Argument → Option (List FunctionParameter)
    | [] => some []
    | [.variadic] => some []
    | .parameter parameter :: rest => (parametersOf rest).map (parameter :: ·)
    | _ => none

variable (nested : Nested)

/-- The value or reference that a method is called on. -/
def receiver : Parser Unit := do
  if ← optionalMark "&" then
    if ← sees isLifetime then lifetime
    discard (optionalWord "mut")
    keyword "self"
    require (!(← sees (isMark "::")))
  else
    discard (optionalWord "mut")
    keyword "self"
    if ← optionalMark ":" then
      discard (nested.type true)

/-- A type that stands without a pattern, as if it had the pattern `_`. -/
def namelessParameter : Parser FunctionParameter := do
  let line := 0
  print [.word "_" line, .mark ':' false]
  let type ← writtenType nested
  return ⟨"_", type⟩

/-- One argument. A generic type may stand without a pattern. -/
def argument : Parser Argument := do
  discard (outerAttributes nested)
  if ← optionalMark "..." then return .variadic
  else
    match ← attempt (receiver nested) with
    | some () => return .receiver
    | none =>
        let tokens ← front
        if isName tokens && isMark "<" tokens.tail then
          let parameter ← namelessParameter nested
          return .parameter parameter
        else
          let form ← nested.pattern
          mark ":"
          if ← optionalMark "..." then return .variadic
          else
            let type ← writtenType nested
            return .parameter ⟨form.name?.getD "_", type⟩

/-- The type that a signature returns. -/
def signatureOutput : Parser (Option TypeExpr) := do
  if ← optionalMark "->" then
    let type ← writtenType nested
    return some type
  else return none

/-- A signature, where clause included. With `safe`, that word may stand for `unsafe`. -/
def signature (safe : Bool) : Parser Signature := do
  discard (optionalWord "const")
  let isAsync ← optionalWord "async"
  if safe && (← sees (isWord "safe")) then keyword "safe"
  else discard (optionalWord "unsafe")
  convention
  keyword "fn"
  let (name, line) ← identifier
  let generics ← genericParameters nested
  let arguments ← group .paren (commaList (argument nested))
  let some (takesSelf, parameters) := readArguments arguments | failure
  let output ← signatureOutput nested
  discard (whereClause nested)
  return ⟨name, line, isAsync, generics.isGeneric, takesSelf, parameters, output⟩

/-- The body of a function, of which the attributes at its start are kept. Statements that cannot be
read are printed as they stand.
-/
def functionBody : Parser (List Attribute) :=
  group .brace do
    let attributes ← innerAttributes nested
    readOrKept nested.statements
    return attributes

/-- A function behind its visibility: its signature, the attributes at the start of its body, and
whether it has one.
-/
def functionForm (safe : Bool) : Parser (Signature × List Attribute × Bool) := do
  let found ← signature nested safe
  if ← optionalMark ";" then return (found, [], false)
  else
    let attributes ← functionBody nested
    return (found, attributes, true)

end Wiring.Source.Grammar
