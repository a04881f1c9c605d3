import Wiring.Source.Grammar.Items

/-! The whole grammar: each part with the parsers of all parts inside it, up to a depth that bounds
how deep parts lie inside one another.
-/

namespace Wiring.Source.Grammar

/-- The parser of a part. At depth zero nothing can be read. -/
def language : Nat → Nested
  | 0, _ => failure
  | depth + 1, part =>
      match part with
      | .type plus => typeExpr (language depth) plus
      | .bound captures constants => bound (language depth) captures constants
      | .expression braces => expression (language depth) braces
      | .operand braces enclosed => operand (language depth) braces enclosed
      | .operators left braces least => operators (language depth) left braces least
      | .earlyExpression attributes => earlyExpression (language depth) attributes
      | .statements => statements (language depth)
      | .pattern => singlePattern (language depth)
      | .item => item (language depth)

/-- A depth that suffices for the tokens: no part lies in another one without a token between them
more often than parts can follow one another at one place.
-/
def depthOf (tokens : Tokens) : Nat :=
  16 * Token.weightOf tokens + 16

/-- The parsers to read the tokens with. -/
def languageFor (tokens : Tokens) : Nested :=
  language (depthOf tokens)

/-- The items that the tokens of a file are. -/
def items? (tokens : Tokens) : Option (List Item) :=
  (fileItems (languageFor tokens)).all? tokens

end Wiring.Source.Grammar
