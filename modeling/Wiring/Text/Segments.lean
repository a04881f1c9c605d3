import Wiring.Text.Join

/-! Paths of names are texts whose segments stand between `::`. The list functions work on
characters; the functions on `String` are their images, so a law about characters is a law about
texts. Main statements: joining what was split gives the text back, and splitting at the last
separator loses nothing.
-/

namespace Wiring.Segments

/-- Splits at each `::`, found from left to right and never overlapping. -/
def splitChars : List Char → List (List Char)
  | [] => [[]]
  | ':' :: ':' :: rest => [] :: splitChars rest
  | char :: rest =>
      match splitChars rest with
      | [] => [[char]]
      | head :: tail => (char :: head) :: tail

/-- Splits at the last `::`, or answers nothing where there is none. -/
def splitLastChars : List Char → Option (List Char × List Char)
  | [] => none
  | char :: rest =>
      match splitLastChars rest with
      | some (before, after) => some (char :: before, after)
      | none =>
          match char, rest with
          | ':', ':' :: after => some ([], after)
          | _, _ => none

/-- Drops every leading `::`. -/
def dropLeadingChars : List Char → List Char
  | ':' :: ':' :: rest => dropLeadingChars rest
  | chars => chars

/-- The texts between the separators. -/
def split (text : String) : List String :=
  (splitChars text.toList).map String.ofList

/-- What stands before the last separator, and what stands behind it. -/
def splitLast? (text : String) : Option (String × String) :=
  (splitLastChars text.toList).map fun (before, after) =>
    (String.ofList before, String.ofList after)

/-- The text without the separators that it starts with. -/
def dropLeading (text : String) : String :=
  String.ofList (dropLeadingChars text.toList)

/-- The text of a path with the given segments. -/
def join (segments : List String) : String :=
  Text.joinWith "::" segments

/-- The path of something called `name` in `home`. -/
def within (home name : String) : String :=
  home ++ "::" ++ name

/-- A text has at least one segment, by the cases of the splitting. -/
theorem splitChars_ne_nil (chars : List Char)
    : splitChars chars ≠ [] := by
  fun_cases splitChars chars <;> simp_all

/-- Joining puts a `::` between two segments and nothing elsewhere. -/
theorem joinWith_splitChars (chars : List Char)
    : Text.joinWith "::" ((splitChars chars).map String.ofList) = String.ofList chars := by
  fun_induction splitChars chars with
  | case1 => rfl
  | case2 rest ih =>
      obtain ⟨head, tail, found⟩ := List.exists_cons_of_ne_nil (splitChars_ne_nil rest)
      rw [found] at ih ⊢
      simp only [List.map_cons] at ih ⊢
      rw [Text.joinWith_cons_cons, ih]
      apply String.toList_inj.1
      simp
  | case3 char rest _ empty ih => exact absurd empty (splitChars_ne_nil rest)
  | case4 char rest _ head tail found ih =>
      rw [found] at ih
      cases tail with
      | nil =>
          simp only [List.map_cons, List.map_nil, Text.joinWith_singleton] at ih ⊢
          rw [String.ofList_injective ih]
      | cons second more =>
          simp only [List.map_cons, Text.joinWith_cons_cons] at ih ⊢
          apply String.toList_inj.1
          have joined := congrArg String.toList ih
          simp only [String.toList_append, String.toList_ofList, List.cons_append] at joined ⊢
          rw [joined]

/-- The two parts and the separator are the text, by induction on the text. -/
theorem eq_of_splitLastChars {chars before after : List Char}
    (found : splitLastChars chars = some (before, after))
    : chars = before ++ ':' :: ':' :: after := by
  induction chars generalizing before with
  | nil => simp [splitLastChars] at found
  | cons char rest ih =>
      unfold splitLastChars at found
      split at found
      · rename_i inner
        simp only [Option.some.injEq, Prod.mk.injEq] at found
        obtain ⟨rfl, rfl⟩ := found
        simp [ih inner]
      · split at found
        · simp only [Option.some.injEq, Prod.mk.injEq] at found
          obtain ⟨rfl, rfl⟩ := found
          rfl
        · simp at found

/-- Joining the segments of a text gives the text back. -/
theorem join_split (text : String)
    : join (split text) = text := by
  simp [join, split, joinWith_splitChars]

/-- Splitting at the last separator loses nothing. -/
theorem eq_within_of_splitLast? {text before after : String}
    (found : splitLast? text = some (before, after))
    : text = within before after := by
  simp only [splitLast?, Option.map_eq_some_iff, Prod.exists, Prod.mk.injEq] at found
  obtain ⟨first, last, split, rfl, rfl⟩ := found
  apply String.toList_inj.1
  simp [within, eq_of_splitLastChars split]

end Wiring.Segments
