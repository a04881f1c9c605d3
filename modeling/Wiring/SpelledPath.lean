import Wiring.Text.Segments

/-! A path exactly as it was written in a source file, before it is qualified. -/

namespace Wiring

/-- A path as it is written, without arguments. -/
structure SpelledPath where
  /-- Whether it starts with `::`. -/
  rooted : Bool
  segments : List String
  deriving DecidableEq, Inhabited, Repr

namespace SpelledPath

/-- The path that is one name. -/
def single (name : String) : SpelledPath :=
  ⟨false, [name]⟩

/-- The last name of a path. -/
def last? (path : SpelledPath) : Option String :=
  path.segments.getLast?

/-- How a path is written. -/
def text (path : SpelledPath) : String :=
  (if path.rooted then "::" else "") ++ Segments.join path.segments

/-- Reads the text of a path: one leading `::` roots it. -/
def ofText (text : String) : SpelledPath :=
  match text.toList with
  | ':' :: ':' :: rest => ⟨true, Segments.split (String.ofList rest)⟩
  | _ => ⟨false, Segments.split text⟩

/-- The same path with `rest` below it. -/
def extend (path : SpelledPath) (rest : List String) : SpelledPath :=
  { path with segments := path.segments ++ rest }

end SpelledPath

end Wiring
