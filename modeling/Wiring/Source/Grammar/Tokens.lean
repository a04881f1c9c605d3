import Wiring.Source.Identifier
import Wiring.Source.Token

/-! What stands at the front of a token sequence. -/

namespace Wiring.Source.Grammar

/-- What is left to read. -/
abbrev Tokens :=
  List Token

/-- Whether the given word stands first. -/
def isWord (word : String) : Tokens → Bool
  | .word text _ :: _ => text = word
  | _ => false

/-- Whether one of the given words stands first. -/
def isOneOf (words : List String) : Tokens → Bool
  | .word text _ :: _ => words.contains text
  | _ => false

/-- Whether a word stands first. -/
def isAnyWord : Tokens → Bool
  | .word .. :: _ => true
  | _ => false

/-- Whether an identifier comes first that is not reserved. -/
def isName : Tokens → Bool
  | .word text _ :: _ => !Identifier.isReserved text
  | _ => false

/-- The words that stand for a module or type in a path. -/
def pathWords : List String :=
  ["super", "self", "Self", "crate"]

/-- Whether the given characters stand first, each joined to the next. -/
def startsMarks : List Char → Tokens → Bool
  | [], _ => true
  | [char], .mark found _ :: _ => char = found
  | char :: rest, .mark found true :: tokens => char = found && startsMarks rest tokens
  | _, _ => false

/-- Whether the operator comes first. Its characters must be joined; what follows them may be joined
to it as well.
-/
def isMark (operator : String) (tokens : Tokens) : Bool :=
  startsMarks operator.toList tokens

/-- A colon that is no half of a `::`. -/
def isLoneColon (tokens : Tokens) : Bool :=
  isMark ":" tokens && !isMark "::" tokens

/-- A dot that begins no range. -/
def isLoneDot (tokens : Tokens) : Bool :=
  isMark "." tokens && !isMark ".." tokens

/-- The mark behind the path of a macro call. -/
def isCallMark (tokens : Tokens) : Bool :=
  isMark "!" tokens && !isMark "!=" tokens

/-- Whether a group with these delimiters stands first. -/
def isGroup (delimiter : Delimiter) : Tokens → Bool
  | .group found _ :: _ => found = delimiter
  | _ => false

/-- Whether a group stands first. -/
def isAnyGroup : Tokens → Bool
  | .group .. :: _ => true
  | _ => false

/-- Whether a lifetime stands first. -/
def isLifetime : Tokens → Bool
  | .mark '\x27' _ :: .word .. :: _ => true
  | _ => false

/-- What follows the first thing, a lifetime counting as one. -/
def behindOne (tokens : Tokens) : Tokens :=
  if isLifetime tokens then tokens.drop 2 else tokens.tail

/-- Whether the literal text is that of a number. -/
def isNumber (text : String) : Bool :=
  text.toList.head?.any Char.isDigit

/-- Whether a literal comes first: a token of that kind, a truth value, or a negative number. -/
def isLiteral : Tokens → Bool
  | .literal _ :: _ => true
  | .mark '-' _ :: .literal text :: _ => isNumber text
  | tokens => isOneOf ["true", "false"] tokens

/-- Whether a text literal comes first. -/
def isText : Tokens → Bool
  | .literal text :: _ => text.toList.head? = some '\x22' || text.toList.head? = some 'r'
  | _ => false

/-- The tokens without the given word, if it stands first. -/
def skipWord (word : String) (tokens : Tokens) : Tokens :=
  if isWord word tokens then tokens.tail else tokens

/-- What follows the name of a foreign calling convention, if one is given. -/
def skipConvention (tokens : Tokens) : Tokens :=
  if isWord "extern" tokens then
    if isText tokens.tail then tokens.tail.tail else tokens.tail
  else tokens

/-- Whether a path may start with what comes first. -/
def startsPath (tokens : Tokens) : Bool :=
  isName tokens || isOneOf pathWords tokens || isMark "::" tokens || isMark "<" tokens

/-- Whether a path starts here that may call a macro in place of an item. -/
def startsItemPath (tokens : Tokens) : Bool :=
  isName tokens || isOneOf ["self", "super", "crate"] tokens || isMark "::" tokens

/-- The printed form of an operator: its characters joined. -/
def marksOf : List Char → Tokens
  | [] => []
  | [char] => [.mark char false]
  | char :: rest => .mark char true :: marksOf rest

end Wiring.Source.Grammar
