/-! Decoding UTF-8 bytes that may be broken: each longest part that could have begun a character, but
did not end as one, becomes one replacement character.
-/

namespace Wiring.Utf8

/-- The character that stands for bytes that are not UTF-8. -/
def replacement : Char :=
  '\ufffd'

/-- A character that has begun: how many bytes it still needs, the bounds of the next one, and the
value of those read.
-/
structure Pending where
  needed : Nat
  low : Nat
  high : Nat
  value : Nat
  deriving DecidableEq, Repr

/-- Where one byte leads. -/
inductive Reading
  | complete (char : Char)
  | pending (pending : Pending)
  | invalid
  deriving DecidableEq, Repr

/-- What a first byte begins. Bounds on the second byte rule out overlong forms, surrogates and
values that are too large.
-/
def begin (byte : Nat) : Reading :=
  if byte < 0x80 then .complete (Char.ofNat byte)
  else if byte < 0xc2 then .invalid
  else if byte < 0xe0 then .pending ⟨1, 0x80, 0xbf, byte - 0xc0⟩
  else if byte = 0xe0 then .pending ⟨2, 0xa0, 0xbf, 0⟩
  else if byte = 0xed then .pending ⟨2, 0x80, 0x9f, 13⟩
  else if byte < 0xf0 then .pending ⟨2, 0x80, 0xbf, byte - 0xe0⟩
  else if byte = 0xf0 then .pending ⟨3, 0x90, 0xbf, 0⟩
  else if byte < 0xf4 then .pending ⟨3, 0x80, 0xbf, byte - 0xf0⟩
  else if byte = 0xf4 then .pending ⟨3, 0x80, 0x8f, 4⟩
  else .invalid

/-- What a further byte makes of a character that has begun. -/
def advance (pending : Pending) (byte : Nat) : Reading :=
  if pending.low ≤ byte ∧ byte ≤ pending.high then
    let value := pending.value * 64 + byte % 64
    if pending.needed = 1 then .complete (Char.ofNat value)
    else .pending ⟨pending.needed - 1, 0x80, 0xbf, value⟩
  else .invalid

/-- Reads a byte; one that does not go on with what has begun begins anew. -/
def read (pending : Option Pending) (byte : Nat) : List Char × Reading :=
  match pending with
  | none => ([], begin byte)
  | some pending =>
      match advance pending byte with
      | .invalid => ([replacement], begin byte)
      | reading => ([], reading)

/-- The characters that are read from here on, `pending` being what is read of the next one. -/
def decodeFrom (pending : Option Pending) : List Nat → List Char
  | [] => if pending.isSome then [replacement] else []
  | byte :: rest =>
      let (broken, reading) := read pending byte
      broken
        ++ (match reading with
          | .complete char => char :: decodeFrom none rest
          | .pending pending => decodeFrom (some pending) rest
          | .invalid => replacement :: decodeFrom none rest)

/-- The text of some bytes, with replacements for those that are not UTF-8. -/
def decode (bytes : List UInt8) : String :=
  String.ofList (decodeFrom none (bytes.map UInt8.toNat))

example : decode [0x61, 0xe2, 0x82, 0xe2, 0x82, 0xac, 0xff] = "a\ufffd€\ufffd" := by decide

end Wiring.Utf8
