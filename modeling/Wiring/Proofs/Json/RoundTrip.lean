import Wiring.Json.Printer
import Wiring.Json.Reader

/-! Reading what was printed. Values without numbers are read back as they were, whatever their texts
hold. The fuel of the reader bounds the nesting; the length of the text is always enough.
-/

namespace Wiring.Json

-----------------------------------------------------------------------------------------
-- Texts
-----------------------------------------------------------------------------------------

/-- A hexadecimal digit is read as its value. -/
theorem hexValue?_hexDigit
    : ∀ value < 16, Text.hexValue? (hexDigit value) = some value := by
  decide

/-- A control character is read back from its four hexadecimal digits. -/
theorem fourHex?_control {code : Nat} (control : code < 32)
    : fourHex? '0' '0' (hexDigit (code / 16)) (hexDigit (code % 16)) = some code := by
  have zero : Text.hexValue? '0' = some 0 := by decide
  have high := hexValue?_hexDigit (code / 16) (by omega)
  have low := hexValue?_hexDigit (code % 16) (by omega)
  simp only [fourHex?, zero, high, low, Option.bind_eq_bind, Option.bind_some, Option.some.injEq]
  omega

/-- An escaped character is read back as the one piece it stands for, by the three kinds of escapes. -/
theorem pieces?_escape (char : Char) (rest : List Char)
    : pieces? (escape char ++ rest)
      = (pieces? rest).map fun (more, rest) => (.char char :: more, rest) := by
  by_cases special : char ∈ ['\x22', '\\', '\x08', '\x0c', '\n', '\r', '\t']
  · simp only [List.mem_cons, List.not_mem_nil, or_false] at special
    rcases special with rfl | rfl | rfl | rfl | rfl | rfl | rfl
      <;> cases behind : pieces? rest
      <;> simp [escape, pieces?, simpleEscape?, behind]
  · simp only [List.mem_cons, List.not_mem_nil, or_false, not_or] at special
    obtain ⟨quote, backslash, backspace, feed, line, back, tab⟩ := special
    by_cases control : char.toNat < 32
    · have code := fourHex?_control control
      have piece : Piece.ofCode char.toNat = .char char := by
        have notHalf : ¬ (0xd800 ≤ char.toNat ∧ char.toNat ≤ 0xdfff) := by omega
        rw [Piece.ofCode, if_neg notHalf, Char.ofNat_toNat]
      cases behind : pieces? rest
        <;> simp [escape, quote, backslash, backspace, feed, line, back, tab, control, pieces?, code,
          piece, behind]
    · simp only [escape, quote, backslash, backspace, feed, line, back, tab, control, if_false,
        List.cons_append, List.nil_append]
      rw [pieces?]
      · cases behind : pieces? rest <;> simp [control, backslash]
      · exact quote
      · rintro first second third fourth more rfl
        exact absurd rfl backslash
      · rintro other more rfl
        exact absurd rfl backslash

/-- Escaped characters are read back up to the closing quote, by induction on them. -/
theorem pieces?_flatMap_escape (chars rest : List Char)
    : pieces? (chars.flatMap escape ++ '\x22' :: rest) = some (chars.map .char, rest) := by
  induction chars with
  | nil => simp [pieces?]
  | cons char chars ih =>
      rw [List.flatMap_cons, List.append_assoc, pieces?_escape, ih]
      rfl

/-- Pieces that are characters make up a text, since none is half of one. -/
theorem textOfPieces_map_char (chars : List Char)
    : textOfPieces (chars.map .char) = some chars := by
  induction chars with
  | nil => rfl
  | cons char chars ih => simp [textOfPieces, ih]

/-- Quoted text is read back, from behind its opening quote. -/
theorem text?_quoted (text : String) (rest : List Char)
    : text? (text.toList.flatMap escape ++ '\x22' :: rest) = some (some text, rest) := by
  simp [text?, pieces?_flatMap_escape, textOfPieces_map_char]

-----------------------------------------------------------------------------------------
-- Values
-----------------------------------------------------------------------------------------

mutual

/-- The value is the same when it is read back: it holds no number, and no broken text. -/
def Faithful : Json → Prop
  | null | bool _ => True
  | natural _ | otherNumber => False
  | text value => value.isSome = true
  | array items => FaithfulItems items
  | object members => FaithfulMembers members

/-- All of the items are faithful. -/
def FaithfulItems : List Json → Prop
  | [] => True
  | first :: rest => first.Faithful ∧ FaithfulItems rest

/-- All of the members are, and their keys are texts. -/
def FaithfulMembers : List JsonMember → Prop
  | [] => True
  | .mk key value :: rest => key.isSome = true ∧ value.Faithful ∧ FaithfulMembers rest

end

/-- Blanks in front of a value do not count. -/
theorem skipSpace_newline (indent : Nat) (chars : List Char)
    : skipSpace (newline indent ++ chars) = skipSpace chars := by
  have blanks : ∀ char ∈ newline indent, isSpace char = true := by
    intro char member
    rcases List.mem_cons.mp member with rfl | member
    · decide
    · rw [List.eq_of_mem_replicate member]
      decide
  exact List.dropWhile_append_of_pos blanks

/-- Nothing is skipped in front of a visible character. -/
theorem skipSpace_cons {char : Char} (visible : isSpace char = false) (chars : List Char)
    : skipSpace (char :: chars) = char :: chars := by
  simp [skipSpace, visible]

/-- Space in front of a value does not matter. -/
theorem value?_of_skipSpace_eq {fuel : Nat} {chars others : List Char}
    (same : skipSpace chars = skipSpace others)
    : value? fuel chars = value? fuel others := by
  cases fuel with
  | zero => rfl
  | succ fuel => rw [value?, value?, same]

/-- Nor does it in front of items, which start with a value. -/
theorem items?_of_skipSpace_eq {fuel : Nat} {chars others : List Char}
    (same : skipSpace chars = skipSpace others)
    : items? fuel chars = items? fuel others := by
  cases fuel with
  | zero => rfl
  | succ fuel => rw [items?, items?, value?_of_skipSpace_eq same]

/-- Nor in front of members, which start with a key. -/
theorem members?_of_skipSpace_eq {fuel : Nat} {chars others : List Char}
    (same : skipSpace chars = skipSpace others)
    : members? fuel chars = members? fuel others := by
  cases fuel with
  | zero => rfl
  | succ fuel => rw [members?, members?, same]

/-- A printed value begins with a character that neither is a blank nor closes anything. -/
theorem exists_print_eq_cons {json : Json} (faithful : json.Faithful) (indent : Nat)
    : ∃ head tail,
        print indent json = head :: tail
        ∧ isSpace head = false
        ∧ head ≠ ']' := by
  cases json with
  | null => exact ⟨_, _, rfl, by decide, by decide⟩
  | bool value => cases value <;> exact ⟨_, _, rfl, by decide, by decide⟩
  | natural value | otherNumber => simp [Faithful] at faithful
  | text value => exact ⟨_, _, rfl, by decide, by decide⟩
  | array items =>
      cases items <;> exact ⟨_, _, rfl, by decide, by decide⟩
  | object members =>
      cases members <;> exact ⟨_, _, rfl, by decide, by decide⟩

/-- What some fuel is enough for: values, items up to the closing bracket, and members up to the
closing brace, each printed in not more characters than there is fuel.
-/
structure ReadsBack (fuel : Nat) : Prop where
  value
    : ∀ (json : Json) (indent : Nat) (rest : List Char),
        json.Faithful
        → (print indent json).length ≤ fuel
        → value? fuel (print indent json ++ rest) = some (json, rest)
  items
    : ∀ (first : Json) (others : List Json) (indent outer : Nat) (rest : List Char),
        first.Faithful
        → FaithfulItems others
        → (print indent first ++ printItems indent others).length < fuel
        → items? fuel
            (print indent first
              ++ (printItems indent others ++ (newline outer ++ ']' :: rest)))
          = some (first :: others, rest)
  members
    : ∀ (first : JsonMember) (others : List JsonMember) (indent outer : Nat) (rest : List Char),
        FaithfulMembers (first :: others)
        → (printMember indent first ++ printMembers indent others).length < fuel
        → members? fuel
            (printMember indent first
              ++ (printMembers indent others ++ (newline outer ++ '\x7d' :: rest)))
          = some (first :: others, rest)

/-- Without fuel there is nothing to read back, for every value prints at least one character. -/
theorem readsBack_zero : ReadsBack 0 where
  value json indent rest faithful enough := by
    obtain ⟨head, tail, printed, _⟩ := exists_print_eq_cons faithful indent
    simp [printed] at enough
  items _ _ _ _ _ _ _ enough := by simp at enough
  members _ _ _ _ _ _ enough := by simp at enough

/-- A value is read back with one more unit of fuel than its parts need, by the cases of the value; a
list of items or members starts with something that is not its end.
-/
theorem ReadsBack.value_succ {fuel : Nat} (below : ReadsBack fuel) {json : Json} {indent : Nat}
    {rest : List Char} (faithful : json.Faithful)
    (enough : (print indent json).length ≤ fuel + 1)
    : value? (fuel + 1) (print indent json ++ rest) = some (json, rest) := by
  cases json with
  | null => simp [print, value?, skipSpace, isSpace, dropExact?]
  | bool value => cases value <;> simp [print, value?, skipSpace, isSpace, dropExact?]
  | natural value | otherNumber => simp [Faithful] at faithful
  | text value =>
      obtain ⟨held, rfl⟩ := Option.isSome_iff_exists.mp faithful
      simp [print, quoteText, quote, value?, skipSpace, isSpace, text?_quoted]
  | array items =>
      cases items with
      | nil => simp [print, value?, skipSpace, isSpace]
      | cons first others =>
          obtain ⟨faithfulFirst, faithfulOthers⟩ := faithful
          have printed
              : print indent (array (first :: others)) ++ rest
                = '[' :: (newline (indent + 1)
                    ++ (print (indent + 1) first
                      ++ (printItems (indent + 1) others ++ (newline indent ++ ']' :: rest)))) := by
            simp [print]
          have items := below.items first others (indent + 1) indent rest faithfulFirst
            faithfulOthers (by simp [print] at enough ⊢; omega)
          obtain ⟨head, tail, starts, visible, notClosing⟩ :=
            exists_print_eq_cons faithfulFirst (indent + 1)
          rw [starts, List.cons_append] at items
          rw [printed, value?, skipSpace_cons (by decide)]
          simp only [skipSpace_newline, starts, List.cons_append, skipSpace_cons visible]
          split
          · rename_i closed
            exact absurd (List.cons.inj closed).1 notClosing
          · rw [items]
            rfl
  | object members =>
      cases members with
      | nil => simp [print, value?, skipSpace, isSpace]
      | cons first others =>
          have printed
              : print indent (object (first :: others)) ++ rest
                = '\x7b' :: (newline (indent + 1)
                    ++ (printMember (indent + 1) first
                      ++ (printMembers (indent + 1) others
                        ++ (newline indent ++ '\x7d' :: rest)))) := by
            simp [print]
          have members := below.members first others (indent + 1) indent rest faithful
            (by simp [print] at enough ⊢; omega)
          obtain ⟨key, value⟩ := first
          have starts
              : printMember (indent + 1) (.mk key value)
                = '\x22' :: ((key.getD "\ufffd").toList.flatMap escape
                    ++ ['\x22', ':', ' '] ++ print (indent + 1) value) := by
            simp [printMember, quoteText, quote]
          rw [starts, List.cons_append] at members
          rw [printed, value?, skipSpace_cons (by decide)]
          simp only [skipSpace_newline, starts, List.cons_append]
          rw [skipSpace_cons (by decide)]
          split
          · rename_i closed
            exact absurd (List.cons.inj closed).1 (by decide)
          · rw [members]
            rfl

/-- Items are read back with one more unit of fuel than values and shorter lists of items need, by
whether a comma follows the first item.
-/
theorem ReadsBack.items_succ {fuel : Nat} (below : ReadsBack fuel) {first : Json}
    {others : List Json} {indent outer : Nat} {rest : List Char} (faithful : first.Faithful)
    (faithfulOthers : FaithfulItems others)
    (enough : (print indent first ++ printItems indent others).length < fuel + 1)
    : items? (fuel + 1)
        (print indent first ++ (printItems indent others ++ (newline outer ++ ']' :: rest)))
      = some (first :: others, rest) := by
  simp only [List.length_append] at enough
  rw [items?]
  have value := below.value first indent
    (printItems indent others ++ (newline outer ++ ']' :: rest)) faithful (by omega)
  simp only [value, Option.bind_eq_bind, Option.bind_some]
  cases others with
  | nil =>
      simp only [printItems, List.nil_append, skipSpace_newline]
      rw [skipSpace_cons (by decide)]
      rfl
  | cons second more =>
      obtain ⟨faithfulSecond, faithfulMore⟩ := faithfulOthers
      have items := below.items second more indent outer rest faithfulSecond faithfulMore
        (by simp [printItems] at enough ⊢; omega)
      simp only [printItems, List.cons_append, List.append_assoc]
      rw [skipSpace_cons (by decide)]
      simp only [items?_of_skipSpace_eq (skipSpace_newline indent _), items, Option.bind_some]

/-- So are members, by whether a comma follows the first member. -/
theorem ReadsBack.members_succ {fuel : Nat} (below : ReadsBack fuel) {first : JsonMember}
    {others : List JsonMember} {indent outer : Nat} {rest : List Char}
    (faithful : FaithfulMembers (first :: others))
    (enough : (printMember indent first ++ printMembers indent others).length < fuel + 1)
    : members? (fuel + 1)
        (printMember indent first
          ++ (printMembers indent others ++ (newline outer ++ '\x7d' :: rest)))
      = some (first :: others, rest) := by
  obtain ⟨key, json⟩ := first
  obtain ⟨isText, faithfulValue, faithfulOthers⟩ := faithful
  obtain ⟨name, rfl⟩ := Option.isSome_iff_exists.mp isText
  have starts (behind : List Char)
      : printMember indent (.mk (some name) json) ++ behind
        = '\x22' :: (name.toList.flatMap escape
            ++ '\x22' :: ':' :: ' ' :: (print indent json ++ behind)) := by
    simp [printMember, quoteText, quote]
  simp only [printMember, quoteText, quote, List.length_append, List.length_cons] at enough
  have value := below.value json indent
    (printMembers indent others ++ (newline outer ++ '\x7d' :: rest)) faithfulValue (by omega)
  have blank (chars : List Char) : value? fuel (' ' :: chars) = value? fuel chars :=
    value?_of_skipSpace_eq rfl
  rw [starts, members?, skipSpace_cons (by decide)]
  simp only [text?_quoted, Option.bind_eq_bind, Option.bind_some]
  rw [skipSpace_cons (by decide)]
  simp only [blank, value, Option.bind_some]
  cases others with
  | nil =>
      simp only [printMembers, List.nil_append, skipSpace_newline]
      rw [skipSpace_cons (by decide)]
      rfl
  | cons second more =>
      have members := below.members second more indent outer rest faithfulOthers
        (by simp [printMembers] at enough ⊢; omega)
      simp only [printMembers, List.cons_append, List.append_assoc]
      rw [skipSpace_cons (by decide)]
      simp only [members?_of_skipSpace_eq (skipSpace_newline indent _), members, Option.bind_some]

/-- Values, items and members are read back with as much fuel as they have characters, by induction on
the fuel for all three at once.
-/
theorem readsBack (fuel : Nat) : ReadsBack fuel := by
  induction fuel with
  | zero => exact readsBack_zero
  | succ fuel below =>
      constructor
      · intro json indent rest faithful enough
        exact below.value_succ faithful enough
      · intro first others indent outer rest faithful faithfulOthers enough
        exact below.items_succ faithful faithfulOthers enough
      · intro first others indent outer rest faithful enough
        exact below.members_succ faithful enough

/-- Printed values without numbers are read back as they were. -/
theorem ofText?_pretty {json : Json} (faithful : json.Faithful)
    : ofText? (pretty json) = some json := by
  have chars : (pretty json).toList = print 0 json := by simp [pretty]
  have read := (readsBack ((print 0 json).length + 1)).value json 0 [] faithful (by omega)
  rw [List.append_nil] at read
  rw [ofText?, chars, read]
  rfl

end Wiring.Json
