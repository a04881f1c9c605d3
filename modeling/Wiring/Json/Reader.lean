import Wiring.Json.Value
import Wiring.Text.Hex

/-! Reading JSON. Each reader answers what it read at the front of a text and what follows it. -/

namespace Wiring.Json

/-- Whether a character may stand between tokens. -/
def isSpace (char : Char) : Bool :=
  char = ' ' || char = '\n' || char = '\t' || char = '\r'

/-- What is left after blanks. -/
def skipSpace (chars : List Char) : List Char :=
  chars.dropWhile isSpace

/-- The value of the four digits of a `\u` escape. -/
def fourHex? (first second third fourth : Char) : Option Nat := do
  let first ← Text.hexValue? first
  let second ← Text.hexValue? second
  let third ← Text.hexValue? third
  let fourth ← Text.hexValue? fourth
  some (((first * 16 + second) * 16 + third) * 16 + fourth)

/-- One piece of quoted text: a character, or half a surrogate pair. -/
inductive Piece
  | char (char : Char)
  | half (code : Nat)
  deriving DecidableEq, Repr

/-- What one `\u` escape stands for, half of a surrogate pair being kept as such. -/
def Piece.ofCode (code : Nat) : Piece :=
  if 0xd800 ≤ code ∧ code ≤ 0xdfff then .half code else .char (Char.ofNat code)

/-- The character that an escape of one letter stands for. -/
def simpleEscape? : Char → Option Char
  | '\x22' => some '\x22'
  | '\\' => some '\\'
  | '/' => some '/'
  | 'b' => some '\x08'
  | 'f' => some '\x0c'
  | 'n' => some '\n'
  | 'r' => some '\r'
  | 't' => some '\t'
  | _ => none

/-- The pieces of quoted text, from behind its opening quote. -/
def pieces? : List Char → Option (List Piece × List Char)
  | [] => none
  | '\x22' :: rest => some ([], rest)
  | '\\' :: 'u' :: first :: second :: third :: fourth :: rest => do
      let code ← fourHex? first second third fourth
      let (more, rest) ← pieces? rest
      some (.ofCode code :: more, rest)
  | '\\' :: char :: rest => do
      let char ← simpleEscape? char
      let (more, rest) ← pieces? rest
      some (.char char :: more, rest)
  | char :: rest =>
      if char.toNat < 32 ∨ char = '\\' then none
      else do
        let (more, rest) ← pieces? rest
        some (.char char :: more, rest)

/-- The text of the pieces: a first and a second half make one character. -/
def textOfPieces : List Piece → Option (List Char)
  | [] => some []
  | .char char :: rest => (textOfPieces rest).map (char :: ·)
  | .half high :: .half low :: rest =>
      if high < 0xdc00 ∧ 0xdc00 ≤ low then
        (textOfPieces rest).map
          (Char.ofNat (0x10000 + (high - 0xd800) * 0x400 + (low - 0xdc00)) :: ·)
      else none
  | .half _ :: _ => none

/-- Quoted text, from behind its opening quote. -/
def text? (chars : List Char) : Option (Option String × List Char) :=
  (pieces? chars).map fun (pieces, rest) => ((textOfPieces pieces).map String.ofList, rest)

/-- The value of a row of decimal digits. -/
def natOfDigits (digits : List Char) : Nat :=
  digits.foldl (fun value digit => 10 * value + (digit.toNat - 48)) 0

/-- The digits behind a point, of which there must be one, if a point is there. -/
def fraction? (chars : List Char) : Option (Bool × List Char) :=
  match chars with
  | '.' :: rest =>
      if rest.head?.any Char.isDigit then some (true, rest.dropWhile Char.isDigit) else none
  | _ => some (false, chars)

/-- Whether an exponent stands here, and what is left after it; `none` if one is begun and has no
digit.
-/
def exponent? (chars : List Char) : Option (Bool × List Char) :=
  match chars with
  | char :: rest =>
      if char = 'e' ∨ char = 'E' then
        let rest :=
          match rest with
          | '+' :: rest | '-' :: rest => rest
          | rest => rest
        if rest.head?.any Char.isDigit then some (true, rest.dropWhile Char.isDigit) else none
      else some (false, chars)
  | [] => some (false, [])

/-- The least number that does not fit 64 bits. -/
def naturalLimit : Nat :=
  0x10000000000000000

/-- A number, from its first digit on. No digit may follow a leading zero. -/
def number? (negative : Bool) (chars : List Char) : Option (Json × List Char) := do
  let digits := chars.takeWhile Char.isDigit
  if digits.isEmpty then none
  else if digits.head? = some '0' ∧ 1 < digits.length then none
  else
    let (pointed, rest) ← fraction? (chars.dropWhile Char.isDigit)
    let (scaled, rest) ← exponent? rest
    let value := natOfDigits digits
    if negative ∨ pointed ∨ scaled ∨ naturalLimit ≤ value then some (otherNumber, rest)
    else some (natural value, rest)

/-- What is left after the given characters, if the text starts with them. -/
def dropExact? : List Char → List Char → Option (List Char)
  | [], rest => some rest
  | expected :: more, char :: rest => if expected = char then dropExact? more rest else none
  | _ :: _, [] => none

mutual

/-- A value; `fuel` bounds the nesting. -/
def value? (fuel : Nat) (chars : List Char) : Option (Json × List Char) :=
  match fuel with
  | 0 => none
  | fuel + 1 =>
      match skipSpace chars with
      | 'n' :: rest => (dropExact? "ull".toList rest).map (null, ·)
      | 't' :: rest => (dropExact? "rue".toList rest).map (bool true, ·)
      | 'f' :: rest => (dropExact? "alse".toList rest).map (bool false, ·)
      | '\x22' :: rest => (text? rest).map fun (value, rest) => (text value, rest)
      | '-' :: rest => number? true rest
      | '[' :: rest =>
          match skipSpace rest with
          | ']' :: rest => some (array [], rest)
          | rest => (items? fuel rest).map fun (items, rest) => (array items, rest)
      | '\x7b' :: rest =>
          match skipSpace rest with
          | '\x7d' :: rest => some (object [], rest)
          | rest => (members? fuel rest).map fun (members, rest) => (object members, rest)
      | rest => number? false rest

/-- The items of an array up to its closing bracket; there is at least one. -/
def items? (fuel : Nat) (chars : List Char) : Option (List Json × List Char) :=
  match fuel with
  | 0 => none
  | fuel + 1 => do
      let (first, rest) ← value? fuel chars
      match skipSpace rest with
      | ']' :: rest => some ([first], rest)
      | ',' :: rest =>
          let (more, rest) ← items? fuel rest
          some (first :: more, rest)
      | _ => none

/-- The members of an object up to its closing brace; there is at least one. -/
def members? (fuel : Nat) (chars : List Char) : Option (List JsonMember × List Char) :=
  match fuel with
  | 0 => none
  | fuel + 1 =>
      match skipSpace chars with
      | '\x22' :: rest => do
          let (key, rest) ← text? rest
          match skipSpace rest with
          | ':' :: rest =>
              let (value, rest) ← value? fuel rest
              match skipSpace rest with
              | '\x7d' :: rest => some ([.mk key value], rest)
              | ',' :: rest =>
                  let (more, rest) ← members? fuel rest
                  some (.mk key value :: more, rest)
              | _ => none
          | _ => none
      | _ => none

end

/-- The one value that the text holds, blanks aside. -/
def ofText? (text : String) : Option Json :=
  match value? (text.toList.length + 1) text.toList with
  | some (value, rest) => if (skipSpace rest).isEmpty then some value else none
  | none => none

/-! Reading the parts of a value. -/

/-- The truth value that a JSON value is. -/
def asBool? : Json → Option Bool
  | bool value => some value
  | _ => none

/-- The natural number that a JSON value is. -/
def asNatural? : Json → Option Nat
  | natural value => some value
  | _ => none

/-- The text that a JSON value is. -/
def asText? : Json → Option String
  | text value => value
  | _ => none

/-- The items of a JSON array. -/
def asArray? : Json → Option (List Json)
  | array items => some items
  | _ => none

/-- The values of named fields, in the order of `names`. They come from an object, where no field
may stand twice and unknown ones do not count, or from an array in that order, which may end early.
-/
def fields? (names : List String) : Json → Option (List (Option Json))
  | object members =>
      if members.any fun member => member.key.isNone then none
      else
        names.mapM fun name =>
          match members.filter fun member => member.key = some name with
          | [] => some none
          | [member] => some (some member.value)
          | _ => none
  | array items =>
      if items.length ≤ names.length then
        some (names.zipIdx.map fun (_, index) => items[index]?)
      else none
  | _ => none

end Wiring.Json
