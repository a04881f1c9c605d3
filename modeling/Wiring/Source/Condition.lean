import Wiring.Source.Grammar.Language

/-! Conditions under which an item is compiled, and whether one holds in test builds alone. Truth
values are assigned to atoms by their printed text; `test` is one of them.
-/

namespace Wiring.Source

/-- A condition on the configuration. -/
inductive Condition
  /-- A flag, a setting with its value, or anything that is not looked into. -/
  | atom (text : String)
  | all (conditions : List Condition)
  | any (conditions : List Condition)
  | not (condition : Condition)
  deriving Inhabited, Repr

namespace Condition

open Grammar

mutual

/-- Whether the condition asks for a test build. Negations are not looked into. -/
def requiresTest : Condition → Bool
  | atom text => text = "test"
  | all conditions => someRequiresTest conditions
  | any [] => false
  | any (first :: rest) => requiresTest first && eachRequiresTest rest
  | not _ => false

/-- Whether one of several conditions asks for a test build. -/
def someRequiresTest : List Condition → Bool
  | [] => false
  | first :: rest => requiresTest first || someRequiresTest rest

/-- Whether each of several conditions asks for a test build. -/
def eachRequiresTest : List Condition → Bool
  | [] => true
  | first :: rest => requiresTest first && eachRequiresTest rest

end

/-- The condition that a list stands for: its head, the conditions in it, and its printed text. -/
def ofList (head : Attribute) (conditions : List Condition) (text : String) : Condition :=
  if head.isNamed "all" then all conditions
  else if head.isNamed "any" then any conditions
  else
    match conditions with
    | [single] => if head.isNamed "not" then not single else atom text
    | _ => atom text

/-- One condition. A list with a head of its own, or with contents that are no conditions, is an
atom; `fuel` bounds how deep lists lie inside one another.
-/
def condition (nested : Nested) : Nat → Parser Condition
  | 0 => failure
  | fuel + 1 => do
      let (head, printed) ← captured (attributeContents nested)
      let text := Token.textOf printed
      match head.input with
      | .group inner =>
          match (commaList (condition nested fuel)).all? inner with
          | some conditions => return ofList head conditions text
          | none => return atom text
      | _ => return atom text

/-- The condition that an attribute sets, if it is readable. -/
def ofAttribute? (attr : Attribute) : Option Condition :=
  if attr.isNamed "cfg" then
    match attr.input with
    | .group tokens => (condition (languageFor tokens) (depthOf tokens)).all? tokens
    | _ => none
  else none

end Condition

/-- Whether one of the attributes keeps what carries it out of all but test builds. -/
def isTestOnly (attributes : List Attribute) : Bool :=
  attributes.any fun attr => (Condition.ofAttribute? attr).any Condition.requiresTest

end Wiring.Source
