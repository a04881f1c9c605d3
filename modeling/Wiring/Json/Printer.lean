import Wiring.Json.Value

/-! JSON as text, over several lines, each level indented by two spaces. -/

namespace Wiring.Json

/-- The digit of a value below sixteen, in lower case. -/
def hexDigit (value : Nat) : Char :=
  if value < 10 then Char.ofNat (48 + value) else Char.ofNat (87 + value)

/-- Quotes, backslashes and control characters are escaped, all else stands for itself. -/
def escape (char : Char) : List Char :=
  if char = '\x22' then ['\\', '\x22']
  else if char = '\\' then ['\\', '\\']
  else if char = '\x08' then ['\\', 'b']
  else if char = '\x0c' then ['\\', 'f']
  else if char = '\n' then ['\\', 'n']
  else if char = '\r' then ['\\', 'r']
  else if char = '\t' then ['\\', 't']
  else if char.toNat < 32 then
    ['\\', 'u', '0', '0', hexDigit (char.toNat / 16), hexDigit (char.toNat % 16)]
  else [char]

/-- A text in its quotes. -/
def quote (text : String) : List Char :=
  '\x22' :: text.toList.flatMap escape ++ ['\x22']

/-- Broken text has no form of its own and prints as the replacement character. -/
def quoteText (text : Option String) : List Char :=
  quote (text.getD "\ufffd")

/-- A line break and two blanks for each level. -/
def newline (indent : Nat) : List Char :=
  '\n' :: List.replicate (2 * indent) ' '

mutual

/-- A value, whose first line is already indented and whose other lines stand `indent` levels deep. -/
def print (indent : Nat) : Json → List Char
  | null => "null".toList
  | bool true => "true".toList
  | bool false => "false".toList
  | natural value => (toString value).toList
  | otherNumber => ['0']
  | text value => quoteText value
  | array [] => ['[', ']']
  | array (first :: rest) =>
      '[' :: newline (indent + 1) ++ print (indent + 1) first ++ printItems (indent + 1) rest
        ++ newline indent ++ [']']
  | object [] => ['\x7b', '\x7d']
  | object (first :: rest) =>
      '\x7b' :: newline (indent + 1) ++ printMember (indent + 1) first
        ++ printMembers (indent + 1) rest ++ newline indent ++ ['\x7d']

/-- The items that follow a first one. -/
def printItems (indent : Nat) : List Json → List Char
  | [] => []
  | first :: rest => ',' :: newline indent ++ print indent first ++ printItems indent rest

/-- A member of an object on its line. -/
def printMember (indent : Nat) : JsonMember → List Char
  | .mk key value => quoteText key ++ ':' :: ' ' :: print indent value

/-- The members that follow a first one. -/
def printMembers (indent : Nat) : List JsonMember → List Char
  | [] => []
  | first :: rest => ',' :: newline indent ++ printMember indent first ++ printMembers indent rest

end

/-- The text of a value, over several lines. -/
def pretty (json : Json) : String :=
  String.ofList (print 0 json)

end Wiring.Json
