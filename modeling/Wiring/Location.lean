import Wiring.FilePath

/-! Where a declaration stands: its file and the line of its name. -/

namespace Wiring

/-- Where a declaration stands. -/
structure Location where
  file : FilePath
  line : Nat
  deriving DecidableEq, Inhabited, Repr

/-- How a location is printed. -/
def Location.text (location : Location) : String :=
  location.file.text ++ ":" ++ toString location.line

end Wiring
