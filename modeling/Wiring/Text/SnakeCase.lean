import Wiring.Unicode.LetterCase

/-! Names in snake case: capitals are lowered, and an underscore stands before each capital that
begins a word.
-/

namespace Wiring.SnakeCase

open Wiring.Unicode

/-- A capital begins a word after a small letter or a digit, and at the end of a run of capitals
when a small letter follows.
-/
def beginsWord (previous next : Option Char) : Bool :=
  match previous with
  | none => false
  | some char =>
      isLower char || char.isDigit || (isUpper char && next.any isLower)

/-- The snake case of what follows `previous`. -/
def after (previous : Option Char) : List Char → List Char
  | [] => []
  | char :: rest =>
      if isUpper char then
        (if beginsWord previous rest.head? then ['_'] else [])
          ++ lowerCase char ++ after (some char) rest
      else char :: after (some char) rest

/-- A name in snake case. -/
def ofName (name : String) : String :=
  String.ofList (after none name.toList)

example : ofName "HTTPClient2Go" = "http_client2_go" := by decide

end Wiring.SnakeCase
