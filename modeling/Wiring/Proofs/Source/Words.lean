import Wiring.Proofs.Artifact.RelativePath
import Wiring.Source.Lexer

/-! Words at the front of a text. An identifier is read as one word, raw or not: no blank, comment,
literal or quoted text starts with it, and it ends where no character of a name follows.
-/

namespace Wiring.Source

open Wiring.Unicode Identifier Lexer

/-- What is checked item by item holds of all items. -/
theorem forall_mem_of_all {α : Type} {p : α → Prop} [DecidablePred p] {items : List α}
    (checked : items.all (fun item => decide (p item)) = true)
    : ∀ item ∈ items, p item := by
  simpa using checked

-----------------------------------------------------------------------------------------
-- Characters of names
-----------------------------------------------------------------------------------------

/-- The blanks and direction marks, by their codes. -/
def spaceRanges : List (Nat × Nat) :=
  (0x200e, 0x200f) :: blankRanges

/-- A space is in one of the ranges for spaces. -/
theorem exists_range_of_isSpace {char : Char} (space : isSpace char = true)
    : ∃ range ∈ spaceRanges, range.1 ≤ char.toNat ∧ char.toNat ≤ range.2 := by
  simp only [isSpace, Bool.or_eq_true, decide_eq_true_eq] at space
  rcases space with (blank | left) | right
  · obtain ⟨range, among, within⟩ := inRanges_iff.mp blank
    exact ⟨range, List.mem_cons_of_mem _ among, within⟩
  · exact ⟨(0x200e, 0x200f), List.mem_cons_self, by simp [left]⟩
  · exact ⟨(0x200e, 0x200f), List.mem_cons_self, by simp [right]⟩

/-- The characters that start a name, by their codes. -/
def startingRanges : List (Nat × Nat) :=
  (95, 95) :: (65, 90) :: (97, 122) :: startRanges

/-- What starts a name is in one of the ranges for names. -/
theorem exists_range_of_startsName {char : Char} (starts : startsName char = true)
    : ∃ range ∈ startingRanges, range.1 ≤ char.toNat ∧ char.toNat ≤ range.2 := by
  simp only [startsName, isStart, Bool.or_eq_true, Bool.and_eq_true, decide_eq_true_eq] at starts
  rcases starts with rfl | letter | ⟨_, inside⟩
  · exact ⟨(95, 95), List.mem_cons_self, by decide⟩
  · rcases toNat_of_isAlpha letter with capital | small
    · exact ⟨(65, 90), by simp [startingRanges], capital⟩
    · exact ⟨(97, 122), by simp [startingRanges], small⟩
  · obtain ⟨range, among, within⟩ := inRanges_iff.mp inside
    exact ⟨range, by simp [startingRanges, among], within⟩

/-- The two tables have no code in common. -/
theorem spaceRanges_apart
    : ∀ space ∈ spaceRanges,
        ∀ range ∈ startingRanges, range.2 < space.1 ∨ space.2 < range.1 := by
  have checked
      : (spaceRanges.all fun space =>
          startingRanges.all fun range =>
            Nat.blt range.2 space.1 || Nat.blt space.2 range.1) = true := by
    decide +kernel
  simpa only [List.all_eq_true, Bool.or_eq_true, Nat.blt_eq] using checked

/-- So it is no space, since the ranges are apart. -/
theorem isSpace_of_startsName {char : Char} (starts : startsName char = true)
    : isSpace char = false := by
  by_contra space
  obtain ⟨blank, amongBlanks, here⟩ := exists_range_of_isSpace (by simpa using space)
  obtain ⟨range, among, within⟩ := exists_range_of_startsName starts
  have apart := spaceRanges_apart blank amongBlanks range among
  omega

/-- There are ten digits. -/
theorem exists_ofNat_of_isDigit {char : Char} (digit : char.isDigit = true)
    : ∃ value < 10, char = Char.ofNat (48 + value) := by
  have bounds : 48 ≤ char.val ∧ char.val ≤ 57 := by simpa [Char.isDigit] using digit
  have bounds : 48 ≤ char.toNat ∧ char.toNat ≤ 57 :=
    ⟨UInt32.le_iff_toNat_le.mp bounds.1, UInt32.le_iff_toNat_le.mp bounds.2⟩
  refine ⟨char.toNat - 48, by omega, ?_⟩
  rw [Nat.add_sub_cancel' bounds.1, Char.ofNat_toNat]

/-- They continue names. -/
theorem isContinue_of_isDigit {char : Char} (digit : char.isDigit = true)
    : isContinue char = true := by
  obtain ⟨value, small, rfl⟩ := exists_ofNat_of_isDigit digit
  have digits : ∀ value < 10, isContinue (Char.ofNat (48 + value)) = true := by decide
  exact digits value small

/-- They start none. -/
theorem isDigit_eq_false_of_startsName {char : Char} (starts : startsName char = true)
    : char.isDigit = false := by
  by_contra digit
  obtain ⟨value, small, rfl⟩ := exists_ofNat_of_isDigit (by simpa using digit)
  have apart : ∀ value < 10, startsName (Char.ofNat (48 + value)) = false := by decide
  rw [apart value small] at starts
  contradiction

/-- Characters that differ in starting names differ. -/
theorem ne_of_startsName {char other : Char} (starts : startsName char = true)
    (apart : startsName other = false)
    : char ≠ other := by
  rintro rfl
  simp [starts] at apart

-----------------------------------------------------------------------------------------
-- Names and what ends them
-----------------------------------------------------------------------------------------

/-- The characters that stand right behind a token in printed text. -/
def breaks : List Char :=
  [' ', ')', ']', '\x7d', '\n']

/-- Whether no token that ends here runs on into what follows. -/
def endsToken (rest : List Char) : Bool :=
  rest.head?.all breaks.contains

/-- The rest of a name, and behind it what no token runs on into. -/
structure RunsOut (name after : List Char) : Prop where
  continues : ∀ char ∈ name, isContinue char = true
  ends : endsToken after = true

/-- A name runs out behind its first character as well. -/
theorem RunsOut.tail {char : Char} {name after : List Char} (runs : RunsOut (char :: name) after)
    : RunsOut name after :=
  ⟨fun other member => runs.continues other (List.mem_cons_of_mem char member), runs.ends⟩

/-- None of the breaks continues a name. -/
theorem isContinue_of_mem_breaks : ∀ char ∈ breaks, isContinue char = false :=
  forall_mem_of_all (by decide)

/-- Neither a name nor what ends it holds a quote or a hash sign. -/
theorem RunsOut.head {name after : List Char} (runs : RunsOut name after)
    : ∀ char ∈ (name ++ after).head?, char ≠ '#' ∧ char ≠ '\x22' ∧ char ≠ '\x27' := by
  intro char first
  have found : isContinue char = true ∨ char ∈ breaks := by
    cases name with
    | nil =>
        obtain ⟨rest, rfl⟩ : ∃ rest, after = char :: rest := by
          cases after with
          | nil => simp at first
          | cons head rest => exact ⟨rest, by simpa using first⟩
        exact .inr (by simpa [endsToken] using runs.ends)
    | cons head rest =>
        obtain rfl : head = char := by simpa using first
        exact .inl (runs.continues head (by simp))
  refine ⟨?_, ?_, ?_⟩ <;>
    · rintro rfl
      exact absurd found (by decide)

/-- What follows a character of the name is what is left of it. -/
theorem RunsOut.behind {next : Char} {name after rest : List Char} (runs : RunsOut name after)
    (same : name ++ after = next :: rest) (continues : isContinue next = true)
    : ∃ left, rest = left ++ after ∧ RunsOut left after := by
  cases name with
  | nil =>
      have ends := runs.ends
      rw [List.nil_append] at same
      rw [same] at ends
      have isBreak : next ∈ breaks := by simpa [endsToken] using ends
      rw [isContinue_of_mem_breaks next isBreak] at continues
      contradiction
  | cons head tail =>
      obtain ⟨rfl, rfl⟩ := List.cons.inj same
      exact ⟨tail, rfl, runs.tail⟩

/-- A name is cut off where it runs out. -/
theorem RunsOut.takeWhile {name after : List Char} (runs : RunsOut name after)
    : (name ++ after).takeWhile isContinue = name
      ∧ (name ++ after).dropWhile isContinue = after := by
  have stops : after.takeWhile isContinue = [] ∧ after.dropWhile isContinue = after := by
    cases after with
    | nil => exact ⟨rfl, rfl⟩
    | cons head rest =>
        have isBreak : head ∈ breaks := by simpa [endsToken] using runs.ends
        simp [isContinue_of_mem_breaks head isBreak]
  rw [List.takeWhile_append_of_pos runs.continues, List.dropWhile_append_of_pos runs.continues,
    stops.1, stops.2, List.append_nil]
  exact ⟨rfl, rfl⟩

-----------------------------------------------------------------------------------------
-- No literal
-----------------------------------------------------------------------------------------

/-- No number is read where no digit stands, for both kinds of numbers start with one. A character that
is no digit has no value, or one of ten or more.
-/
theorem number_eq_none {char : Char} (noDigit : char.isDigit = false) (rest : List Char)
    : (Literal.float (char :: rest)).or (Literal.integer (char :: rest)) = none := by
  have large : ∀ value, Text.hexValue? char = some value → 10 ≤ value := by
    intro value found
    unfold Text.hexValue? at found
    rw [if_neg (by simp [noDigit])] at found
    split at found
    · rename_i small
      have above : 97 ≤ char.toNat := small.1
      obtain rfl := Option.some.inj found
      omega
    · split at found
      · rename_i capital
        have above : 65 ≤ char.toNat := capital.1
        obtain rfl := Option.some.inj found
        omega
      · contradiction
  have noZero : char ≠ '0' := by
    rintro rfl
    exact absurd noDigit (by decide)
  have digits : Literal.digits 10 true (char :: rest) = none := by
    unfold Literal.digits
    cases found : Text.hexValue? char with
    | none => simp
    | some value =>
      have := large value found
      have : ¬ value < 10 := by omega
      simp [this]
  have integer : Literal.integer (char :: rest) = none := by
    unfold Literal.integer
    split <;> simp_all
  simp [Literal.float, noDigit, integer]

/-- Raw text starts with hash signs and a quote, so a letter before anything else starts none. -/
theorem raw_eq_none {chars : List Char} (quoting : Literal.Quoting)
    (plain : ∀ char ∈ chars.head?, char ≠ '#' ∧ char ≠ '\x22')
    : Literal.raw quoting chars = none ∧ Literal.raw quoting ('#' :: chars) = none := by
  cases chars with
  | nil => exact ⟨rfl, rfl⟩
  | cons char rest =>
    obtain ⟨noHash, noQuote⟩ := plain char rfl
    constructor <;>
      · simp only [Literal.raw, List.takeWhile_cons, noHash, decide_false, decide_true,
          Bool.false_eq_true, if_false, if_true, List.length_nil, List.length_cons, List.drop_zero,
          List.drop_succ_cons, Nat.zero_add]
        split
        · simp_all
        · rfl

/-- No literal starts with a letter that the rest of a name follows. Behind a letter of a prefix no
quote follows, as a name goes on there or has ended.
-/
theorem RunsOut.rest?_eq_none {char : Char} {name after : List Char} (runs : RunsOut name after)
    (starts : startsName char = true)
    : Literal.rest? (char :: (name ++ after)) = none := by
  have noRaw {quoting : Literal.Quoting} {left : List Char} (runs : RunsOut left after)
      : Literal.raw quoting (left ++ after) = none :=
    (raw_eq_none quoting fun next first => ⟨(runs.head next first).1, (runs.head next first).2.1⟩).1
  have apart {first mark : Char} {left : List Char}
      (same : char :: (name ++ after) = first :: mark :: left)
      : mark ≠ '\x22' ∧ mark ≠ '\x27' :=
    (runs.head mark (by rw [(List.cons.inj same).2]; rfl)).2
  unfold Literal.rest?
  split
  · rename_i same
    obtain ⟨rfl, rfl⟩ := List.cons.inj same
    exact absurd starts (by decide)
  · rename_i same
    obtain ⟨rfl, rfl⟩ := List.cons.inj same
    exact noRaw runs
  · rename_i same
    exact absurd rfl (apart same).1
  · rename_i same
    obtain ⟨-, same⟩ := List.cons.inj same
    obtain ⟨left, rfl, runs⟩ := runs.behind same (by decide)
    exact noRaw runs
  · rename_i same
    exact absurd rfl (apart same).2
  · rename_i same
    exact absurd rfl (apart same).1
  · rename_i same
    obtain ⟨-, same⟩ := List.cons.inj same
    obtain ⟨left, rfl, runs⟩ := runs.behind same (by decide)
    exact noRaw runs
  · rename_i same
    obtain ⟨rfl, rfl⟩ := List.cons.inj same
    exact absurd starts (by decide)
  · exact number_eq_none (isDigit_eq_false_of_startsName starts) _

-----------------------------------------------------------------------------------------
-- One word
-----------------------------------------------------------------------------------------

/-- Text that starts with neither a blank nor a comment starts with a lexeme. Comments of every kind
start with a slash.
-/
theorem step?_eq_lexeme? {char : Char} (noSpace : isSpace char = false) (noSlash : char ≠ '/')
    (line : Nat) (rest : List Char)
    : step? line char rest = lexeme? line char rest := by
  -- a comment of any kind starts with a slash
  have noLine : startsLineComment (char :: rest) = false := by
    unfold startsLineComment
    split
    iterate 4
      rename_i same
      exact absurd (List.cons.inj same).1 noSlash
    rfl
  have noBlock : startsBlockComment (char :: rest) = false := by
    unfold startsBlockComment
    split
    iterate 5
      rename_i same
      exact absurd (List.cons.inj same).1 noSlash
    rfl
  have noDocumentation : documentation? (char :: rest) = none := by
    unfold documentation?
    split
    iterate 4
      rename_i same
      exact absurd (List.cons.inj same).1 noSlash
    rfl
  simp [step?, noSpace, noLine, noBlock, noDocumentation]

/-- What starts a name is no bracket. -/
theorem delimiter?_of_startsName {char : Char} (starts : startsName char = true)
    : delimiter? char = none := by
  unfold delimiter?
  split
  iterate 6 exact absurd starts (by decide)
  rfl

/-- Nor is it a mark. -/
theorem mark?_of_startsName {char : Char} (starts : startsName char = true) (rest : List Char)
    : mark? char rest = none := by
  have noPunctuation : isPunctuation char = false := by
    rw [Bool.eq_false_iff]
    intro punctuation
    have apart : ∀ other ∈ "~!@#$%^&*-=+|;:,<.>/?\x27".toList, startsName other = false :=
      forall_mem_of_all (by decide)
    rw [apart char (List.elem_iff.mp punctuation)] at starts
    contradiction
  have noStart : startsPunctuation (char :: rest) = false := by
    unfold startsPunctuation
    split <;> simp_all
  simp [mark?, noStart]

/-- A name that starts neither a literal nor quoted text is read as a word. -/
theorem step?_of_startsName {char : Char} {rest : List Char} (line : Nat)
    (starts : startsName char = true) (noLiteral : Literal.rest? (char :: rest) = none)
    (noQuote : ∀ opening ∈ quoteOpenings, ¬ opening <+: char :: rest)
    : step? line char rest
      = (word? (char :: rest)).map fun (name, after) =>
          ⟨[.word (String.ofList name) line], 0, after⟩ := by
  have noParen : char ≠ '(' := ne_of_startsName starts (by decide)
  have noUnreadable : unreadable.isPrefixOf (char :: rest) = false := by
    have first : unreadable = '(' :: "/*ERROR*/)".toList := by decide
    simp [first, List.isPrefixOf, noParen.symm]
  have noOpening
      : (quoteOpenings.any fun opening => opening.isPrefixOf (char :: rest)) = false := by
    simpa using noQuote
  rw [step?_eq_lexeme? (isSpace_of_startsName starts) (ne_of_startsName starts (by decide))]
  simp [lexeme?, noUnreadable, delimiter?_of_startsName starts, noLiteral,
    mark?_of_startsName starts, noOpening]

/-- The openings of quoted texts, written out. -/
theorem quoteOpenings_eq
    : quoteOpenings
      = [['r', '\x22'], ['r', '#', '\x22'], ['r', '#', '#'], ['b', '\x22'], ['b', '\x27'],
          ['b', 'r', '\x22'], ['b', 'r', '#'], ['c', '\x22'], ['c', 'r', '\x22'],
          ['c', 'r', '#']] := by
  decide

/-- A plain name is the word up to what ends it. -/
theorem RunsOut.word?_eq {char : Char} {name after : List Char} (runs : RunsOut name after)
    (starts : startsName char = true)
    : word? (char :: (name ++ after)) = some (char :: name, after) := by
  have head := runs.head
  unfold word?
  split
  · rename_i same
    obtain ⟨-, same⟩ := List.cons.inj same
    simp [same] at head
  · rename_i same
    obtain ⟨-, same⟩ := List.cons.inj same
    simp [same] at head
  · rename_i same
    obtain ⟨rfl, rfl⟩ := List.cons.inj same
    simp [starts, runs.takeWhile]
  · contradiction

/-- A plain name, up to what ends it. It opens no quoted text, since a name holds neither a hash nor a
quote.
-/
theorem RunsOut.step?_eq {char : Char} {name after : List Char} (runs : RunsOut name after)
    (starts : startsName char = true) (line : Nat)
    : step? line char (name ++ after)
      = some ⟨[.word (String.ofList (char :: name)) line], 0, after⟩ := by
  have head := runs.head
  have noQuote : ∀ opening ∈ quoteOpenings, ¬ opening <+: char :: (name ++ after) := by
    rintro opening member ⟨more, same⟩
    -- A second letter is the last one before a sign that no name holds.
    have second {next : Char} {sign : Char} {more : List Char}
        (same : name ++ after = next :: sign :: more) (continues : isContinue next = true)
        : sign ≠ '#' ∧ sign ≠ '\x22' ∧ sign ≠ '\x27' := by
      obtain ⟨left, behind, runs⟩ := runs.behind same continues
      exact runs.head sign (by simp [← behind])
    simp only [quoteOpenings_eq, List.mem_cons, List.not_mem_nil, or_false] at member
    rcases member with rfl | rfl | rfl | rfl | rfl | rfl | rfl | rfl | rfl | rfl <;>
      (simp only [List.cons_append, List.nil_append, List.cons.injEq] at same
       obtain ⟨rfl, same⟩ := same)
    · simp [← same] at head
    · simp [← same] at head
    · simp [← same] at head
    · simp [← same] at head
    · simp [← same] at head
    · exact (second same.symm (by decide)).2.1 rfl
    · exact (second same.symm (by decide)).1 rfl
    · simp [← same] at head
    · exact (second same.symm (by decide)).2.1 rfl
    · exact (second same.symm (by decide)).1 rfl
  rw [step?_of_startsName line starts (runs.rest?_eq_none starts) noQuote, runs.word?_eq starts]
  rfl

/-- The quote in front of a plain name starts a lifetime and no character. No quote closes a character
behind the name.
-/
theorem RunsOut.step?_quote {char : Char} {name after : List Char} (runs : RunsOut name after)
    (starts : startsName char = true) (line : Nat)
    : step? line '\x27' (char :: (name ++ after))
      = some ⟨[.mark '\x27' true], 0, char :: (name ++ after)⟩ := by
  have noEscape : char ≠ '\\' := ne_of_startsName starts (by decide)
  have head := runs.head
  have noCharacter : Literal.rest? ('\x27' :: char :: (name ++ after)) = none := by
    have unclosed : Literal.afterQuote (name ++ after) = none := by
      unfold Literal.afterQuote
      split
      · rename_i same
        simp [same] at head
      · rfl
    change Literal.single .chars (char :: (name ++ after)) = none
    unfold Literal.single
    split <;> simp_all
  have ends : ∀ next ∈ after.head?, next ≠ '\x27' ∧ next ≠ '#' := by
    intro next first
    have isBreak : next ∈ breaks := by
      have ends := runs.ends
      rw [endsToken, Option.mem_def.mp first] at ends
      simpa using ends
    constructor <;>
      · rintro rfl
        exact absurd isBreak (by decide)
  have lifetime : startsLifetime (char :: (name ++ after)) = true := by
    rw [startsLifetime, runs.word?_eq starts]
    cases after with
    | nil => rfl
    | cons next rest =>
        obtain ⟨noQuote, noHash⟩ := ends next rfl
        simp [noQuote, noHash]
  have quote : mark? '\x27' (char :: (name ++ after)) = some (.mark '\x27' true) := by
    simp only [mark?, lifetime]
    rfl
  rw [step?_eq_lexeme? (by decide) (by decide)]
  simp only [lexeme?, noCharacter, quote]
  rfl

/-- A raw name, up to what ends it. It is no raw text, since a name follows the hash. -/
theorem RunsOut.step?_raw {char : Char} {name after : List Char} (runs : RunsOut name after)
    (starts : startsName char = true) (line : Nat)
    (permitted : neverRaw.contains (String.ofList (char :: name)) = false)
    : step? line 'r' ('#' :: char :: (name ++ after))
      = some ⟨[.word (String.ofList ('r' :: '#' :: char :: name)) line], 0, after⟩ := by
  have noLiteral : Literal.rest? ('r' :: '#' :: char :: (name ++ after)) = none :=
    (raw_eq_none .chars fun next first => by
      obtain rfl : char = next := by simpa using first
      exact ⟨ne_of_startsName starts (by decide), ne_of_startsName starts (by decide)⟩).2
  have noQuote
      : ∀ opening ∈ quoteOpenings, ¬ opening <+: 'r' :: '#' :: char :: (name ++ after) := by
    have noHash : '#' ≠ char := (ne_of_startsName starts (by decide)).symm
    have noMark : '\x22' ≠ char := (ne_of_startsName starts (by decide)).symm
    rintro opening member ⟨more, same⟩
    rw [quoteOpenings_eq] at member
    simp only [List.mem_cons, List.not_mem_nil, or_false] at member
    rcases member with rfl | rfl | rfl | rfl | rfl | rfl | rfl | rfl | rfl | rfl <;>
      simp_all
  rw [step?_of_startsName line (by decide) noLiteral noQuote]
  have word
      : word? ('r' :: '#' :: char :: (name ++ after))
        = some ('r' :: '#' :: char :: name, after) := by
    simp only [word?, starts, runs.takeWhile, permitted, Bool.false_eq_true, not_false_iff,
      and_self, if_true]
  rw [word]
  rfl

/-- An identifier, up to what ends it, by the two forms of a token. -/
theorem step?_word {text : String} {after : List Char} (token : isToken text = true)
    (ends : endsToken after = true) (line : Nat)
    : ∃ char rest,
        text.toList = char :: rest
        ∧ char ≠ '/'
        ∧ step? line char (rest ++ after) = some ⟨[.word text line], 0, after⟩ := by
  have respelled : String.ofList text.toList = text := String.ofList_toList
  unfold isToken at token
  split at token
  · rename_i base spelled
    simp only [Bool.and_eq_true, Bool.not_eq_true'] at token
    obtain ⟨name, permitted⟩ := token
    cases base with
    | nil => simp [isName] at name
    | cons char rest =>
        simp only [isName, Bool.and_eq_true, List.all_eq_true] at name
        rw [spelled] at respelled
        refine ⟨'r', '#' :: char :: rest, spelled, by decide, ?_⟩
        rw [← respelled]
        exact RunsOut.step?_raw ⟨name.2, ends⟩ name.1 line permitted
  · cases spelled : text.toList with
    | nil => simp [spelled, isName] at token
    | cons char rest =>
        simp only [spelled, isName, Bool.and_eq_true, List.all_eq_true] at token
        rw [spelled] at respelled
        refine ⟨char, rest, rfl, ne_of_startsName token.1 (by decide), ?_⟩
        rw [← respelled]
        exact RunsOut.step?_eq ⟨token.2, ends⟩ token.1 line

end Wiring.Source
