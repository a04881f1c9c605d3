/-! Joining texts with a separator between each two of them. -/

namespace Wiring.Text

/-- The texts in order, with `separator` between each two neighbours. -/
def joinWith (separator : String) : List String → String
  | [] => ""
  | [single] => single
  | first :: second :: rest => first ++ separator ++ joinWith separator (second :: rest)

/-- No texts are joined to nothing. -/
@[simp] theorem joinWith_nil (separator : String)
    : joinWith separator [] = "" :=
  rfl

/-- One text stays as it is. -/
@[simp] theorem joinWith_singleton (separator text : String)
    : joinWith separator [text] = text :=
  rfl

/-- The separator stands between the first text and what the others are joined to. -/
theorem joinWith_cons_cons (separator first second : String) (rest : List String)
    : joinWith separator (first :: second :: rest)
      = first ++ separator ++ joinWith separator (second :: rest) :=
  rfl

end Wiring.Text
