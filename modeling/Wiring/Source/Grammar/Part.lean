import Wiring.Source.Grammar.Parser
import Wiring.Source.Item

/-! The parts of the grammar that nest inside one another, and what each of them answers. A parser
of one part is given parsers of all parts for what stands inside it.
-/

namespace Wiring.Source.Grammar

/-- What a type turned out to be. -/
inductive TypeForm
  | path (path : TypePath)
  /-- A single trait in place of a type: its tokens without parentheses of its own. -/
  | loneTrait (tokens : Tokens)
  | other
  deriving Inhabited, Repr

/-- The path that a type is, if it is one. -/
def TypeForm.path? : TypeForm → Option TypePath
  | path found => some found
  | _ => none

/-- What a bound turned out to be. -/
inductive BoundForm
  | lifetime
  /-- The names that an opaque type makes use of. -/
  | capture
  /-- A trait that holds in constants. -/
  | constant
  /-- A trait: its tokens without parentheses of its own. -/
  | plainTrait (tokens : Tokens)
  deriving Inhabited, Repr

/-- Whether a bound names a trait. -/
def BoundForm.isTrait : BoundForm → Bool
  | constant | plainTrait _ => true
  | lifetime | capture => false

/-- What an expression turned out to be. -/
inductive ExpressionForm
  | plain
  /-- Two operands that are compared. -/
  | comparison
  | range
  /-- An expression that ends with a block, and a statement too. -/
  | block
  /-- A macro call with braces. -/
  | bracedCall
  /-- An expression that is printed as it stands in the source. -/
  | kept
  deriving DecidableEq, Inhabited, Repr

/-- What a pattern turned out to be. -/
inductive PatternForm
  | name (name : String)
  /-- A range without a start or without an end. -/
  | openRange
  /-- A pattern that is printed as it stands in the source. -/
  | kept
  | other
  deriving DecidableEq, Inhabited, Repr

/-- The name that a pattern binds as a whole. -/
def PatternForm.name? : PatternForm → Option String
  | name found => some found
  | _ => none

/-- How tightly operators bind, loosest first. -/
inductive Precedence
  | jump
  | assignment
  | range
  | disjunction
  | conjunction
  | comparison
  | bitDisjunction
  | bitDifference
  | bitConjunction
  | shift
  | sum
  | product
  | cast
  deriving DecidableEq, Inhabited, Repr

/-- The place of a level among all levels, by which two of them are compared. -/
def Precedence.rank : Precedence → Nat
  | jump => 0
  | assignment => 1
  | range => 2
  | disjunction => 3
  | conjunction => 4
  | comparison => 5
  | bitDisjunction => 6
  | bitDifference => 7
  | bitConjunction => 8
  | shift => 9
  | sum => 10
  | product => 11
  | cast => 12

/-- A part of the grammar. -/
inductive Part
  /-- A type; with `plus` it may be a sum of bounds. -/
  | type (plus : Bool)
  /-- A bound; it may capture names, or be a trait in constants, only where that is admitted. -/
  | bound (captures constants : Bool)
  /-- An expression. Without `braces` it holds no structure outside of groups. -/
  | expression (braces : Bool)
  /-- An operand with what stands before and behind it. With `enclosed`, a block that it starts with
  is printed in parentheses.
  -/
  | operand (braces enclosed : Bool)
  /-- The operators behind an operand, down to the least precedence given. -/
  | operators (left : ExpressionForm) (braces : Bool) (least : Precedence)
  /-- An expression that ends as early as a statement may; the attributes stand before it. -/
  | earlyExpression (attributes : Tokens)
  | statements
  | pattern
  | item
  deriving Inhabited, Repr

/-- What a part answers. -/
@[reducible]
def Part.Result : Part → Type
  | type _ => TypeForm
  | bound .. => BoundForm
  | expression _ | operand .. | operators .. | earlyExpression _ => ExpressionForm
  | statements => Unit
  | pattern => PatternForm
  | item => Item

/-- The parsers for what stands inside. -/
def Nested :=
  (part : Part) → Parser part.Result

namespace Nested

/-- Reads a type; `plus` tells whether bounds may be added to it. -/
def type (nested : Nested) (plus : Bool) : Parser TypeForm :=
  nested (.type plus)

/-- Reads a bound, with what may stand in this one. -/
def bound (nested : Nested) (captures constants : Bool) : Parser BoundForm :=
  nested (.bound captures constants)

/-- Reads an expression; `braces` tells whether a structure may be written in it. -/
def expression (nested : Nested) (braces : Bool) : Parser ExpressionForm :=
  nested (.expression braces)

/-- Reads an operand, with what may stand in this one. -/
def operand (nested : Nested) (braces enclosed : Bool) : Parser ExpressionForm :=
  nested (.operand braces enclosed)

/-- Reads the operators behind an operand, those that bind at least so tightly, with their operands. -/
def operators (nested : Nested) (left : ExpressionForm) (braces : Bool) (least : Precedence)
    : Parser ExpressionForm :=
  nested (.operators left braces least)

/-- Reads an expression that ends as early as a statement may. -/
def earlyExpression (nested : Nested) (attributes : Tokens) : Parser ExpressionForm :=
  nested (.earlyExpression attributes)

/-- Reads the statements of a block. -/
def statements (nested : Nested) : Parser Unit :=
  nested .statements

/-- Reads a pattern. -/
def pattern (nested : Nested) : Parser PatternForm :=
  nested .pattern

/-- Reads an item. -/
def item (nested : Nested) : Parser Item :=
  nested .item

end Nested

end Wiring.Source.Grammar
