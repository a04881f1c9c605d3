import Wiring.Source.Identifier
import Wiring.Text.Hex

/-! Literals of the source language. Each function reads one literal, suffix included, from the
front of a text and answers what follows it, or nothing when the text starts with no such literal.
-/

namespace Wiring.Source.Literal

open Wiring.Unicode Wiring.Source.Identifier

/-- What follows the suffix of a literal. -/
def dropSuffix : List Char → List Char
  | [] => []
  | char :: rest => if startsName char then rest.dropWhile isContinue else char :: rest

/-- The three kinds of quoted text: characters, bytes, and zero-terminated characters. -/
inductive Quoting
  | chars
  | bytes
  | terminated
  deriving DecidableEq, Repr

namespace Quoting

/-- Bytes are written in ASCII; a zero would end a zero-terminated text. -/
def permits (quoting : Quoting) (char : Char) : Bool :=
  match quoting with
  | chars => true
  | bytes => char.toNat < 128
  | terminated => char.toNat ≠ 0

/-- Which code two hexadecimal digits may give. -/
def permitsCode (quoting : Quoting) (code : Nat) : Bool :=
  match quoting with
  | chars => code < 128
  | bytes => true
  | terminated => code ≠ 0

/-- The characters that may follow a backslash and make an escape with it alone. -/
def simpleEscapes (quoting : Quoting) : List Char :=
  ['n', 'r', 't', '\\', '\x27', '\x22'] ++ (if quoting = terminated then [] else ['0'])

end Quoting

/-- Where the reader stands inside quoted text. -/
inductive QuoteState
  | plain
  | carriageReturn
  | escape
  | firstHex
  | secondHex (first : Nat)
  | openBrace
  | codePoint (value digits : Nat)
  /-- Blanks after a line that ends in a backslash. -/
  | continuation (owesNewline : Bool)
  deriving Repr

/-- Where one character of a quoted text leads. -/
inductive QuoteStep
  | into (state : QuoteState)
  | close
  | refuse
  deriving Repr

/-- Where a character outside of an escape leads. -/
def plainStep (quoting : Quoting) (char : Char) : QuoteStep :=
  if char = '\x22' then .close
  else if char = '\r' then .into .carriageReturn
  else if char = '\\' then .into .escape
  else if quoting.permits char then .into .plain
  else .refuse

/-- A code point that is a character and that the quoting permits. -/
def permitsPoint (quoting : Quoting) (value : Nat) : Bool :=
  value.isValidChar && (quoting ≠ .terminated || value ≠ 0)

/-- Where a character leads. -/
def quoteStep (quoting : Quoting) (state : QuoteState) (char : Char) : QuoteStep :=
  match state with
  | .plain => plainStep quoting char
  | .carriageReturn => if char = '\n' then .into .plain else .refuse
  | .escape =>
      if char = 'x' then .into .firstHex
      else if char = 'u' ∧ quoting ≠ .bytes then .into .openBrace
      else if char = '\n' then .into (.continuation false)
      else if char = '\r' then .into (.continuation true)
      else if quoting.simpleEscapes.contains char then .into .plain
      else .refuse
  | .firstHex =>
      match Text.hexValue? char with
      | some value => .into (.secondHex value)
      | none => .refuse
  | .secondHex first =>
      match Text.hexValue? char with
      | some value =>
          if quoting.permitsCode (16 * first + value) then .into .plain else .refuse
      | none => .refuse
  | .openBrace => if char = '\x7b' then .into (.codePoint 0 0) else .refuse
  | .codePoint value digits =>
      if char = '_' ∧ 0 < digits then .into (.codePoint value digits)
      else if char = '\x7d' ∧ 0 < digits then
        if permitsPoint quoting value then .into .plain else .refuse
      else
        match Text.hexValue? char with
        | some digit =>
            if digits = 6 then .refuse else .into (.codePoint (16 * value + digit) (digits + 1))
        | none => .refuse
  | .continuation true => if char = '\n' then .into (.continuation false) else .refuse
  | .continuation false =>
      if char = ' ' ∨ char = '\t' ∨ char = '\n' then .into (.continuation false)
      else if char = '\r' then .into (.continuation true)
      else plainStep quoting char

/-- Reads quoted text with escapes, from behind its opening quote. -/
def quoted (quoting : Quoting) : QuoteState → List Char → Option (List Char)
  | _, [] => none
  | state, char :: rest =>
      match quoteStep quoting state char with
      | .into next => quoted quoting next rest
      | .close => some (dropSuffix rest)
      | .refuse => none

/-- Reads raw text up to a quote that `hashes` hash signs follow. -/
def rawBody (quoting : Quoting) (hashes : Nat) : List Char → Option (List Char)
  | [] => none
  | '\r' :: '\n' :: rest => rawBody quoting hashes rest
  | char :: rest =>
      if char = '\x22' ∧ List.replicate hashes '#' <+: rest then
        some (dropSuffix (rest.drop hashes))
      else if char = '\r' then none
      else if quoting.permits char then rawBody quoting hashes rest
      else none

/-- Reads raw text from behind its letter: hash signs, at most 255 of them, and a quote. -/
def raw (quoting : Quoting) (chars : List Char) : Option (List Char) :=
  let hashes := (chars.takeWhile (· = '#')).length
  match chars.drop hashes with
  | '\x22' :: rest => if hashes ≤ 255 then rawBody quoting hashes rest else none
  | _ => none

/-- What is left after the quote that closes a character, and after the literal's suffix. -/
def afterQuote : List Char → Option (List Char)
  | '\x27' :: rest => some (dropSuffix rest)
  | _ => none

/-- Reads the digits of a code point escape in a character literal. -/
def charPoint (value digits : Nat) : List Char → Option (List Char)
  | [] => none
  | char :: rest =>
      match quoteStep .chars (.codePoint value digits) char with
      | .into (.codePoint value digits) => charPoint value digits rest
      | .into _ => afterQuote rest
      | _ => none

/-- Reads a character or byte from behind its opening quote. -/
def single (quoting : Quoting) : List Char → Option (List Char)
  | '\\' :: 'x' :: first :: second :: rest =>
      match Text.hexValue? first, Text.hexValue? second with
      | some first, some second =>
          if quoting.permitsCode (16 * first + second) then afterQuote rest else none
      | _, _ => none
  | '\\' :: 'u' :: '\x7b' :: rest => if quoting = .chars then charPoint 0 0 rest else none
  | '\\' :: char :: rest =>
      if quoting.simpleEscapes.contains char then afterQuote rest else none
  | char :: rest => if quoting.permits char ∧ char ≠ '\\' then afterQuote rest else none
  | [] => none

/-- Reads an exponent from behind its letter. -/
def exponent (signed valued : Bool) : List Char → Option (List Char)
  | [] => if valued then some [] else none
  | char :: rest =>
      if char = '+' ∨ char = '-' then
        if valued then some (char :: rest)
        else if signed then none
        else exponent true valued rest
      else if char.isDigit then exponent signed true rest
      else if char = '_' then exponent signed valued rest
      else if valued then some (char :: rest)
      else none

/-- Reads a number with a point or an exponent, from behind its first digit. A point that another
point or a name follows belongs to no number.
-/
def fraction (pointed : Bool) : List Char → Option (List Char)
  | [] => if pointed then some [] else none
  | char :: rest =>
      if char.isDigit ∨ char = '_' then fraction pointed rest
      else if char = '.' then
        if pointed then some (char :: rest)
        else if rest.head?.any fun next => next = '.' || startsName next then none
        else fraction true rest
      else if char = 'e' ∨ char = 'E' then
        match exponent false false rest with
        | some after => some after
        | none => if pointed then some (char :: rest) else none
      else if pointed then some (char :: rest)
      else none

/-- Reads digits of a base. A decimal digit too large for the base spoils the literal, a letter too
large for it ends the digits.
-/
def digits (base : Nat) (empty : Bool) : List Char → Option (List Char)
  | [] => if empty then none else some []
  | char :: rest =>
      if char = '_' then
        if empty ∧ base = 10 then none else digits base empty rest
      else
        match Text.hexValue? char with
        | some value =>
            if value < base then digits base false rest
            else if char.isDigit ∨ empty then none
            else some (char :: rest)
        | none => if empty then none else some (char :: rest)

/-- The end of a number: its suffix, which must not run on into another word. -/
def endNumber (chars : List Char) : Option (List Char) :=
  let rest := dropSuffix chars
  if rest.head?.any isContinue then none else some rest

/-- What is left after a number with a fraction or an exponent. -/
def float (chars : List Char) : Option (List Char) :=
  match chars with
  | char :: rest => if char.isDigit then (fraction false rest).bind endNumber else none
  | [] => none

/-- What is left after a whole number, in the base that it is written in. -/
def integer (chars : List Char) : Option (List Char) :=
  (match chars with
    | '0' :: 'x' :: rest => digits 16 true rest
    | '0' :: 'o' :: rest => digits 8 true rest
    | '0' :: 'b' :: rest => digits 2 true rest
    | _ => digits 10 true chars).bind endNumber

/-- What follows the literal at the front of the text. -/
def rest? (chars : List Char) : Option (List Char) :=
  match chars with
  | '\x22' :: rest => quoted .chars .plain rest
  | 'r' :: rest => raw .chars rest
  | 'b' :: '\x22' :: rest => quoted .bytes .plain rest
  | 'b' :: 'r' :: rest => raw .bytes rest
  | 'b' :: '\x27' :: rest => single .bytes rest
  | 'c' :: '\x22' :: rest => quoted .terminated .plain rest
  | 'c' :: 'r' :: rest => raw .terminated rest
  | '\x27' :: rest => single .chars rest
  | _ => (float chars).or (integer chars)

/-- The value of digits in a base; underscores between them count for nothing. -/
def valueOf (base : Nat) (digits : List Char) : Nat :=
  (digits.filterMap Text.hexValue?).foldl (fun value digit => base * value + digit) 0

/-- The value of a text that is an integer without a suffix. -/
def plainInteger? (chars : List Char) : Option Nat :=
  let found (base : Nat) (digits : List Char) : Option Nat :=
    if digits.all fun char => char = '_' || (Text.hexValue? char).any (· < base) then
      some (valueOf base digits)
    else none
  if rest? chars = some [] then
    match chars with
    | '0' :: 'x' :: digits => found 16 digits
    | '0' :: 'o' :: digits => found 8 digits
    | '0' :: 'b' :: digits => found 2 digits
    | _ => found 10 chars
  else none

/-- The value of a text that can stand for the place of a field: an integer below 2 ^ 32 without a
suffix.
-/
def fieldIndex? (chars : List Char) : Option Nat :=
  (plainInteger? chars).filter (· < 4294967296)

end Wiring.Source.Literal
