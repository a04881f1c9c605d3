import Wiring.Proofs.Source.Words

/-! Printed tokens are read back. Printing puts a space wherever two tokens could run into one
another, so a printed text is cut where its tokens end, and nests as they did.
-/

namespace Wiring.Source

open Wiring.Unicode Identifier Lexer

-----------------------------------------------------------------------------------------
-- Nesting
-----------------------------------------------------------------------------------------

namespace Token

mutual

/-- The lexemes of a token, a group between its brackets. -/
def lexemes : Token → List Lexeme
  | word text line => [.word text line]
  | mark char joint => [.mark char joint]
  | literal text => [.literal text]
  | group delimiter inner => .opening delimiter :: lexemesOf inner ++ [.closing delimiter]

/-- The lexemes of several tokens. -/
def lexemesOf : List Token → List Lexeme
  | [] => []
  | token :: rest => token.lexemes ++ lexemesOf rest

end

end Token

mutual

/-- Nesting the lexemes of a token puts the token behind what was read. -/
theorem Lexer.nest_lexemes (token : Token) (outer : List (Delimiter × List Token))
    (read : List Token) (rest : List Lexeme)
    : nest outer read (token.lexemes ++ rest) = nest outer (token :: read) rest := by
  match token with
  | .word .. | .mark .. | .literal _ => simp [Token.lexemes, nest]
  | .group delimiter inner =>
      have inside := nest_lexemesOf inner ((delimiter, read) :: outer) []
        (.closing delimiter :: rest)
      simp only [Token.lexemes, List.cons_append, List.append_assoc, List.nil_append, nest]
      rw [inside]
      simp [nest]

/-- Lexemes of tokens are nested into those tokens, in one induction with what is in groups. -/
theorem Lexer.nest_lexemesOf (tokens : List Token) (outer : List (Delimiter × List Token))
    (read : List Token) (rest : List Lexeme)
    : nest outer read (Token.lexemesOf tokens ++ rest)
      = nest outer (tokens.reverse ++ read) rest := by
  match tokens with
  | [] => rfl
  | token :: others =>
      rw [Token.lexemesOf, List.append_assoc, nest_lexemes, nest_lexemesOf]
      simp

end

-----------------------------------------------------------------------------------------
-- Marks and brackets
-----------------------------------------------------------------------------------------

/-- The punctuation that neither a comment nor a lifetime starts with. -/
def isPlainMark (char : Char) : Bool :=
  "~!@#$%^&*-=+|;:,<.>?".toList.contains char

/-- Characters that differ in being plain marks differ. -/
theorem ne_of_isPlainMark {char other : Char} (plain : isPlainMark char = true)
    (apart : isPlainMark other = false)
    : char ≠ other := by
  rintro rfl
  simp [plain] at apart

/-- A plain mark is punctuation and nothing else. -/
theorem alone_of_isPlainMark {char : Char} (plain : isPlainMark char = true)
    : isSpace char = false ∧ char.isDigit = false ∧ delimiter? char = none
      ∧ isPunctuation char = true := by
  have all
      : ∀ char ∈ "~!@#$%^&*-=+|;:,<.>?".toList,
          isSpace char = false ∧ char.isDigit = false ∧ delimiter? char = none
          ∧ isPunctuation char = true :=
    forall_mem_of_all (by decide)
  exact all char (List.contains_iff_mem.mp plain)

/-- A plain mark is punctuation. -/
theorem startsPunctuation_of_isPlainMark {char : Char} (plain : isPlainMark char = true)
    (rest : List Char)
    : startsPunctuation (char :: rest) = true := by
  unfold startsPunctuation
  split
  · rename_i same
    exact absurd (List.cons.inj same).1 (ne_of_isPlainMark plain (by decide))
  · rename_i same
    exact absurd (List.cons.inj same).1 (ne_of_isPlainMark plain (by decide))
  · rename_i same
    obtain ⟨rfl, -⟩ := List.cons.inj same
    exact (alone_of_isPlainMark plain).2.2.2
  · rename_i empty
    exact absurd empty (List.cons_ne_nil char rest)

/-- No literal starts with a plain mark. -/
theorem rest?_of_isPlainMark {char : Char} (plain : isPlainMark char = true) (rest : List Char)
    : Literal.rest? (char :: rest) = none := by
  unfold Literal.rest?
  split
  -- a quote or the letter of a prefix comes first in all cases but the last one
  iterate 8
    rename_i same
    exact absurd (List.cons.inj same).1 (ne_of_isPlainMark plain (by decide))
  exact number_eq_none (alone_of_isPlainMark plain).2.1 rest

/-- A plain mark starts no other lexeme, so it is read as itself. -/
theorem step?_mark {char : Char} (plain : isPlainMark char = true) (line : Nat) (rest : List Char)
    : step? line char rest = some ⟨[.mark char (startsPunctuation rest)], 0, rest⟩ := by
  obtain ⟨noSpace, -, noDelimiter, -⟩ := alone_of_isPlainMark plain
  have noUnreadable : unreadable.isPrefixOf (char :: rest) = false := by
    have first : unreadable = '(' :: "/*ERROR*/)".toList := by decide
    have noParen : char ≠ '(' := ne_of_isPlainMark plain (by decide)
    simp [first, List.isPrefixOf, noParen.symm]
  have marked : mark? char rest = some (.mark char (startsPunctuation rest)) := by
    have noQuote : char ≠ '\x27' := ne_of_isPlainMark plain (by decide)
    simp [mark?, startsPunctuation_of_isPlainMark plain, noQuote]
  rw [step?_eq_lexeme? noSpace (ne_of_isPlainMark plain (by decide))]
  simp [lexeme?, noUnreadable, noDelimiter, rest?_of_isPlainMark plain, marked]

/-- The brackets of a group. -/
def Delimiter.brackets : Delimiter → Char × Char
  | paren => ('(', ')')
  | bracket => ('[', ']')
  | brace => ('\x7b', '\x7d')

/-- An opening bracket that does not start the spelling of an unreadable literal. -/
theorem step?_opening (delimiter : Delimiter) {rest : List Char}
    (noSlash : rest.head? ≠ some '/') (line : Nat)
    : step? line delimiter.brackets.1 rest = some ⟨[.opening delimiter], 0, rest⟩ := by
  have readable : unreadable.isPrefixOf ('(' :: rest) = false := by
    have first : unreadable = '(' :: '/' :: "*ERROR*/)".toList := by decide
    cases rest with
    | nil => simp [first, List.isPrefixOf]
    | cons next more =>
        have apart : '/' ≠ next := fun same => noSlash (by simp [← same])
        simp [first, List.isPrefixOf, apart]
  cases delimiter with
  | paren =>
      rw [show Delimiter.paren.brackets.1 = '(' from rfl,
        step?_eq_lexeme? (by decide) (by decide)]
      simp [lexeme?, readable, delimiter?]
  | bracket | brace => rfl

/-- A closing bracket is read as itself. -/
theorem step?_closing (delimiter : Delimiter) (line : Nat) (rest : List Char)
    : step? line delimiter.brackets.2 rest = some ⟨[.closing delimiter], 0, rest⟩ := by
  cases delimiter <;> rfl

-----------------------------------------------------------------------------------------
-- Cutting
-----------------------------------------------------------------------------------------

/-- In front of whatever a token does not run on into, the characters are cut into the lexemes, all
of them on the line that they start on.
-/
structure Cuts (line : Nat) (chars : List Char) (found : List Lexeme) : Prop where
  noSlash : chars.head? ≠ some '/'
  reads
    : ∀ after fuel,
        endsToken after = true
        → (chars ++ after).length ≤ fuel
        → ∃ left,
            after.length ≤ left
            ∧ lexemes line fuel (chars ++ after) = (lexemes line left after).map (found ++ ·)

/-- A step that stays on its line goes on with what is left. -/
theorem lexemes_succ {line fuel : Nat} {char : Char} {rest after : List Char} {found : List Lexeme}
    (step : step? line char rest = some ⟨found, 0, after⟩)
    : lexemes line (fuel + 1) (char :: rest) = (lexemes line fuel after).map (found ++ ·) := by
  simp [lexemes, step]

variable {line : Nat} {chars others : List Char} {found more : List Lexeme}

/-- No characters are no lexemes. -/
theorem Cuts.nil : Cuts line [] [] where
  noSlash := by simp
  reads after fuel _ enough := ⟨fuel, by simpa using enough, by simp⟩

/-- A single step that stays on its line is a cut. -/
theorem Cuts.ofStep {char : Char} {rest : List Char} (noSlash : char ≠ '/')
    (step
      : ∀ after,
          endsToken after = true → step? line char (rest ++ after) = some ⟨found, 0, after⟩)
    : Cuts line (char :: rest) found where
  noSlash := by simpa using noSlash
  reads after fuel ends enough := by
    obtain ⟨fuel, rfl⟩ : ∃ less, fuel = less + 1 := ⟨fuel - 1, by simp at enough; omega⟩
    exact ⟨fuel, by simp at enough; omega, lexemes_succ (step after ends)⟩

/-- An identifier is one lexeme, since it is followed by something that ends it. -/
theorem Cuts.word {text : String} (token : isToken text = true)
    : Cuts line text.toList [.word text line] := by
  obtain ⟨char, rest, spelled, noSlash, _⟩ := step?_word token (rfl : endsToken [] = true) line
  rw [spelled]
  refine .ofStep noSlash fun after ends => ?_
  obtain ⟨_, _, same, _, step⟩ := step?_word token ends line
  obtain ⟨rfl, rfl⟩ := List.cons.inj (spelled.symm.trans same)
  exact step

/-- A quote and the plain name behind it. -/
theorem Cuts.lifetime {name : String} (named : isName name.toList = true)
    : Cuts line ('\x27' :: name.toList) [.mark '\x27' true, .word name line] where
  noSlash := by simp
  reads after fuel ends enough := by
    obtain ⟨char, rest, spelled⟩ : ∃ char rest, name.toList = char :: rest :=
      List.exists_cons_of_ne_nil fun empty => by simp [empty, isName] at named
    rw [spelled] at named enough ⊢
    simp only [isName, Bool.and_eq_true, List.all_eq_true] at named
    have runs : RunsOut rest after := ⟨named.2, ends⟩
    obtain ⟨fuel, rfl⟩ : ∃ less, fuel = less + 2 := ⟨fuel - 2, by simp at enough; omega⟩
    refine ⟨fuel, by simp at enough; omega, ?_⟩
    rw [List.cons_append, List.cons_append, lexemes_succ (runs.step?_quote named.1 line),
      lexemes_succ (runs.step?_eq named.1 line), Option.map_map, ← spelled, String.ofList_toList]
    rfl

/-- What ends a token is no punctuation. -/
theorem startsPunctuation_of_endsToken {after : List Char} (ends : endsToken after = true)
    : startsPunctuation after = false := by
  cases after with
  | nil => rfl
  | cons char rest =>
      have apart : ∀ char ∈ breaks, startsPunctuation (char :: rest) = false := by
        simp only [breaks, List.forall_mem_cons]
        exact ⟨rfl, rfl, rfl, rfl, rfl, by simp⟩
      exact apart char (by simpa [endsToken] using ends)

/-- A plain mark that stands alone is not joined to what follows. -/
theorem Cuts.mark {char : Char} (plain : isPlainMark char = true)
    : Cuts line [char] [.mark char false] := by
  refine .ofStep (ne_of_isPlainMark plain (by decide)) fun after ends => ?_
  rw [List.nil_append, step?_mark plain, startsPunctuation_of_endsToken ends]

/-- A punctuation character that another one is joined to. -/
theorem Cuts.joint {char next : Char} {rest : List Char} (plain : isPlainMark char = true)
    (nextPlain : isPlainMark next = true) (second : Cuts line (next :: rest) more)
    : Cuts line (char :: next :: rest) (.mark char true :: more) where
  noSlash := by simpa using ne_of_isPlainMark plain (by decide)
  reads after fuel ends enough := by
    obtain ⟨fuel, rfl⟩ : ∃ less, fuel = less + 1 := ⟨fuel - 1, by simp at enough; omega⟩
    obtain ⟨left, enough, read⟩ := second.reads after fuel ends (by simpa using enough)
    refine ⟨left, enough, ?_⟩
    have step
        : step? line char (next :: rest ++ after)
          = some ⟨[.mark char true], 0, next :: rest ++ after⟩ := by
      rw [List.cons_append, step?_mark plain, startsPunctuation_of_isPlainMark nextPlain]
    rw [List.cons_append, lexemes_succ step, read, Option.map_map]
    rfl

/-- Characters and, behind a space, others. -/
theorem Cuts.spaced (first : Cuts line chars found) (second : Cuts line others more)
    : Cuts line (chars ++ ' ' :: others) (found ++ more) where
  noSlash := by
    cases chars with
    | nil => simp
    | cons char rest => simpa using first.noSlash
  reads after fuel ends enough := by
    obtain ⟨middle, enough, read⟩ :=
      first.reads (' ' :: others ++ after) fuel rfl (by simpa using enough)
    obtain ⟨middle, rfl⟩ : ∃ less, middle = less + 1 := ⟨middle - 1, by simp at enough; omega⟩
    obtain ⟨left, enough, readMore⟩ := second.reads after middle ends (by simpa using enough)
    refine ⟨left, enough, ?_⟩
    rw [List.append_assoc, read, List.cons_append, lexemes_succ (rfl : step? line ' ' _ = _),
      readMore, Option.map_map, Option.map_map]
    simp [Function.comp_def]

/-- Characters between brackets. -/
theorem Cuts.bracketed (delimiter : Delimiter) (inside : Cuts line chars found)
    : Cuts line (delimiter.brackets.1 :: (chars ++ [delimiter.brackets.2]))
        (.opening delimiter :: found ++ [Lexeme.closing delimiter]) where
  noSlash := by cases delimiter <;> simp [Delimiter.brackets]
  reads after fuel ends enough := by
    obtain ⟨fuel, rfl⟩ : ∃ less, fuel = less + 1 := ⟨fuel - 1, by simp at enough; omega⟩
    have closes : endsToken (delimiter.brackets.2 :: after) = true := by cases delimiter <;> rfl
    obtain ⟨middle, enough, read⟩ :=
      inside.reads (delimiter.brackets.2 :: after) fuel closes (by simpa using enough)
    obtain ⟨left, rfl⟩ : ∃ less, middle = less + 1 := ⟨middle - 1, by simp at enough; omega⟩
    have noSlash : (chars ++ delimiter.brackets.2 :: after).head? ≠ some '/' := by
      cases chars with
      | nil => cases delimiter <;> simp [Delimiter.brackets]
      | cons char rest => simpa using inside.noSlash
    refine ⟨left, by simpa using enough, ?_⟩
    rw [List.cons_append, List.append_assoc, List.singleton_append,
      lexemes_succ (step?_opening delimiter noSlash line), read,
      lexemes_succ (step?_closing delimiter line after), Option.map_map, Option.map_map]
    simp [Function.comp_def]

/-- Nothing else is read from no characters. -/
theorem Cuts.eq_nil (cuts : Cuts line [] found)
    : found = [] := by
  obtain ⟨left, _, read⟩ := cuts.reads [] 0 rfl (by simp)
  simpa [lexemes] using read

/-- A printed group. -/
theorem Cuts.group (delimiter : Delimiter) {inner : String} (inside : Cuts line inner.toList found)
    : Cuts line (delimiter.enclose inner).toList
        (.opening delimiter :: found ++ [Lexeme.closing delimiter]) := by
  cases delimiter with
  | paren => simpa [Delimiter.enclose, Delimiter.brackets] using inside.bracketed .paren
  | bracket => simpa [Delimiter.enclose, Delimiter.brackets] using inside.bracketed .bracket
  | brace =>
      by_cases empty : inner = ""
      · subst empty
        obtain rfl := inside.eq_nil
        simpa [Delimiter.enclose, Delimiter.brackets] using
          (Cuts.nil.spaced Cuts.nil).bracketed .brace
      · simpa [Delimiter.enclose, Delimiter.brackets, empty] using
          (Cuts.nil.spaced (inside.spaced Cuts.nil)).bracketed .brace

-----------------------------------------------------------------------------------------
-- Printed tokens
-----------------------------------------------------------------------------------------

/-- Tokens whose words are identifiers of one line, and whose marks are plain ones, joined where
another mark follows at once, or the quotes of lifetimes. Texts that are given verbatim stand among
them as literals do.
-/
inductive Token.Spelled (verbatim : String → Prop) (line : Nat) : List Token → Prop
  | nil : Spelled verbatim line []
  | word {text rest} (token : isToken text = true) (after : Spelled verbatim line rest)
    : Spelled verbatim line (.word text line :: rest)
  | mark {char rest} (plain : isPlainMark char = true) (after : Spelled verbatim line rest)
    : Spelled verbatim line (.mark char false :: rest)
  | joint {char next joint rest} (plain : isPlainMark char = true)
    (nextPlain : isPlainMark next = true) (after : Spelled verbatim line (.mark next joint :: rest))
    : Spelled verbatim line (.mark char true :: .mark next joint :: rest)
  | lifetime {name rest} (named : isName name.toList = true) (after : Spelled verbatim line rest)
    : Spelled verbatim line (.mark '\x27' true :: .word name line :: rest)
  | literal {text rest} (given : verbatim text) (after : Spelled verbatim line rest)
    : Spelled verbatim line (.literal text :: rest)
  | group {delimiter inner rest} (inside : Spelled verbatim line inner)
    (after : Spelled verbatim line rest)
    : Spelled verbatim line (.group delimiter inner :: rest)

namespace Token

variable {verbatim : String → Prop}

/-- Spelled tokens may be put one after the other. -/
theorem Spelled.append {tokens others : List Token} (first : Spelled verbatim line tokens)
    (second : Spelled verbatim line others)
    : Spelled verbatim line (tokens ++ others) := by
  induction first with
  | nil => exact second
  | word token _ ih => exact .word token ih
  | mark plain _ ih => exact .mark plain ih
  | joint plain nextPlain _ ih => exact .joint plain nextPlain ih
  | lifetime named _ ih => exact .lifetime named ih
  | literal given _ ih => exact .literal given ih
  | group inside _ _ ih => exact .group inside ih

/-- A token that nothing is joined to, and a space between it and what follows. -/
theorem cuts_cons {token : Token} {rest : List Token} (apart : ∀ char, token ≠ .mark char true)
    (first : Cuts line token.text.toList token.lexemes)
    (second : Cuts line (textOf rest).toList (lexemesOf rest))
    : Cuts line (textOf (token :: rest)).toList (lexemesOf (token :: rest)) := by
  cases rest with
  | nil => simpa [textOf, lexemesOf] using first
  | cons next others =>
      rw [textOf]
      · simpa [lexemesOf] using first.spaced second
      · exact apart

/-- A mark is printed first, and printed as its character. -/
theorem exists_textOf_mark (next : Char) (joint : Bool) (rest : List Token)
    : ∃ others, (textOf (.mark next joint :: rest)).toList = next :: others := by
  cases rest with
  | nil => exact ⟨[], by simp [textOf, text]⟩
  | cons token others => exact ⟨_, by simp [textOf, text]; rfl⟩

/-- Printed tokens are cut into their lexemes, by induction on how they are spelled. -/
theorem Spelled.cuts {tokens : List Token} (spelled : Spelled verbatim line tokens)
    (given : ∀ text, verbatim text → Cuts line text.toList [.literal text])
    : Cuts line (textOf tokens).toList (lexemesOf tokens) := by
  induction spelled with
  | nil => exact .nil
  | word token _ ih => exact cuts_cons (by simp) (.word token) ih
  | mark plain _ ih =>
      exact cuts_cons (by simp) (by simpa [text, lexemes] using Cuts.mark plain) ih
  | @joint char next joint rest plain nextPlain after ih =>
      obtain ⟨others, printed⟩ := exists_textOf_mark next joint rest
      rw [printed] at ih
      simpa [textOf, text, lexemesOf, lexemes, printed] using ih.joint plain nextPlain
  | @lifetime name rest named _ ih =>
      cases rest with
      | nil => simpa [textOf, text, lexemesOf, lexemes] using Cuts.lifetime named
      | cons next others =>
          have spaced := (Cuts.lifetime named).spaced ih
          simpa [textOf, text, lexemesOf, lexemes] using spaced
  | literal known _ ih => exact cuts_cons (by simp) (given _ known) ih
  | group _ _ inside ih => exact cuts_cons (by simp) (.group _ inside) ih

end Token

/-- A comment reaches to the end of its line. -/
theorem takeLine_eq {comment : List Char} (oneLine : ∀ char ∈ comment, char ≠ '\n' ∧ char ≠ '\r')
    (rest : List Char)
    : takeLine (comment ++ '\n' :: rest) = (comment, '\n' :: rest) := by
  induction comment with
  | nil => rfl
  | cons char others ih =>
      obtain ⟨noNewline, noReturn⟩ := oneLine char (by simp)
      rw [List.cons_append, takeLine, ih fun other member => oneLine other (by simp [member])]
      · exact noNewline
      · exact fun _ same => absurd same noReturn

/-- A comment and the end of its line are passed over. The line of the comment is one step, and its end
the next.
-/
theorem lexemes_comment {comment : List Char} (line fuel : Nat) (rest : List Char)
    (oneLine : ∀ char ∈ comment, char ≠ '\n' ∧ char ≠ '\r')
    (plain : ∀ char ∈ comment.head?, char ≠ '/' ∧ char ≠ '!')
    : Lexer.lexemes line (fuel + 2) ('/' :: '/' :: (comment ++ '\n' :: rest))
      = Lexer.lexemes (line + 1) fuel rest := by
  have isComment : startsLineComment ('/' :: '/' :: (comment ++ '\n' :: rest)) = true := by
    cases comment with
    | nil => rfl
    | cons char others =>
        obtain ⟨noSlash, noMark⟩ := plain char rfl
        rw [List.cons_append]
        unfold startsLineComment
        split <;> simp_all
  have taken
      : takeLine ('/' :: '/' :: (comment ++ '\n' :: rest))
        = ('/' :: '/' :: comment, '\n' :: rest) := by
    simp [takeLine, takeLine_eq oneLine]
  have first
      : step? line '/' ('/' :: (comment ++ '\n' :: rest)) = some ⟨[], 0, '\n' :: rest⟩ := by
    rw [step?, if_neg (by decide), if_pos isComment, taken]
  have second : step? line '\n' rest = some ⟨[], 1, rest⟩ := rfl
  rw [lexemes_succ first, Lexer.lexemes, second]
  simp

/-- Printed tokens are read back from behind a line comment and before the end of their line. -/
theorem Token.Spelled.ofChars?_eq {tokens : List Token} {comment : List Char}
    (spelled : Spelled (fun _ => False) 2 tokens) (oneLine : ∀ char ∈ comment, char ≠ '\n' ∧ char ≠ '\r')
    (plain : ∀ char ∈ comment.head?, char ≠ '/' ∧ char ≠ '!')
    : ofChars? ('/' :: '/' :: (comment ++ '\n' :: ((textOf tokens).toList ++ ['\n'])))
      = some tokens := by
  have unmarked (rest : List Char) : dropByteOrderMark ('/' :: rest) = '/' :: rest := rfl
  have length (rest : List Char)
      : ('/' :: '/' :: (comment ++ '\n' :: rest)).length
        = comment.length + 1 + rest.length + 2 := by
    simp
    omega
  obtain ⟨left, enough, read⟩ :=
    (spelled.cuts (by simp)).reads ['\n'] (comment.length + 1 + ((textOf tokens).toList ++ ['\n']).length) rfl
      (by omega)
  obtain ⟨left, rfl⟩ : ∃ less, left = less + 1 := ⟨left - 1, by simp at enough; omega⟩
  have newline : step? 2 '\n' [] = some ⟨[], 1, []⟩ := rfl
  simp only [ofChars?, unmarked]
  rw [length, lexemes_comment _ _ _ oneLine plain, read, Lexer.lexemes, newline]
  simpa [Lexer.lexemes, nest] using Lexer.nest_lexemesOf tokens [] [] []

end Wiring.Source
