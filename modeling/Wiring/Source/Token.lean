import Wiring.Text.Join

/-! Tokens of the source language, nested by their brackets, and how a token sequence is printed:
one space between two tokens, none after a punctuation character that is joined to the next one.
-/

namespace Wiring.Source

/-- The pairs that enclose a group. -/
inductive Delimiter
  | paren
  | bracket
  | brace
  deriving DecidableEq, Inhabited, Repr

/-- A token of a source text, groups being one token each. -/
inductive Token
  /-- An identifier or keyword and the line it stands on; a raw one keeps its `r#`. -/
  | word (text : String) (line : Nat)
  /-- One punctuation character, and whether the next character belongs to the same operator. -/
  | mark (char : Char) (joint : Bool)
  | literal (text : String)
  | group (delimiter : Delimiter) (inner : List Token)
  deriving Inhabited, Repr

namespace Delimiter

/-- The printed form of a group around the printed form of its contents. -/
def enclose (delimiter : Delimiter) (inner : String) : String :=
  match delimiter with
  | paren => "(" ++ inner ++ ")"
  | bracket => "[" ++ inner ++ "]"
  | brace => if inner = "" then "\x7b \x7d" else "\x7b " ++ inner ++ " \x7d"

end Delimiter

namespace Token

mutual

/-- How a token is printed. -/
def text : Token → String
  | word text _ => text
  | mark char _ => String.singleton char
  | literal text => text
  | group delimiter inner => delimiter.enclose (textOf inner)

/-- How tokens are printed, with a blank between two of them unless the first is joined to the second.
-/
def textOf : List Token → String
  | [] => ""
  | [token] => token.text
  | token :: next :: rest =>
      token.text
        ++ (match token with | mark _ true => "" | _ => " ")
        ++ textOf (next :: rest)

end

mutual

/-- The number of tokens, those inside groups included. -/
def weight : Token → Nat
  | group _ inner => weightOf inner + 1
  | _ => 1

/-- How much several tokens weigh together. -/
def weightOf : List Token → Nat
  | [] => 0
  | token :: rest => token.weight + weightOf rest

end

end Token

end Wiring.Source
