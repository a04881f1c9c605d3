import Wiring.Source.Grammar.Parser

/-! What a parser makes of the tokens at a position, parser by parser. Each equation says what is
answered and what is left; running a parser on tokens that are known is rewriting with them.
-/

namespace Wiring.Source.Grammar

variable {α β : Type}

/-- One parser after the other. These equations run a parser step by step; a proof rewrites by them
instead of unfolding the monad.
-/
theorem bind_apply (parser : Parser α) (next : α → Parser β) (position : Position)
    : (parser >>= next) position
      = (parser position).bind fun (result, after) => next result after :=
  (rfl)

/-- Where the first parser is known to succeed, the second one goes on from there. -/
theorem bind_of_some {parser : Parser α} {next : α → Parser β} {position after : Position}
    {result : α} (read : parser position = some (result, after))
    : (parser >>= next) position = next result after := by
  rw [bind_apply, read]
  rfl

/-- The second parser goes on from where the first one stops. -/
theorem exists_of_bind {parser : Parser α} {next : α → Parser β} {position after : Position}
    {result : β} (read : (parser >>= next) position = some (result, after))
    : ∃ answer middle,
        parser position = some (answer, middle) ∧ next answer middle = some (result, after) := by
  obtain ⟨⟨answer, middle⟩, first, rest⟩ := Option.bind_eq_some_iff.mp read
  exact ⟨answer, middle, first, rest⟩

/-- An answer without reading. -/
theorem pure_apply (result : α) (position : Position)
    : (pure result : Parser α) position = some (result, position) :=
  (rfl)

/-- A failure. -/
theorem failure_apply (position : Position)
    : (failure : Parser α) position = none :=
  (rfl)

/-- A mapped answer. -/
theorem map_apply (f : α → β) (parser : Parser α) (position : Position)
    : (f <$> parser) position
      = (parser position).map fun (result, after) => (f result, after) := by
  cases found : parser position <;> simp [Functor.map, StateT.map, found]

/-- A dropped answer. -/
theorem discard_apply (parser : Parser α) (position : Position)
    : (discard parser : Parser PUnit) position
      = (parser position).map fun (_, after) => (.unit, after) :=
  map_apply _ parser position

/-- The same where it is known what is read. -/
theorem discard_of_some {parser : Parser α} {position after : Position} {result : α}
    (read : parser position = some (result, after))
    : (discard parser : Parser PUnit) position = some (.unit, after) := by
  rw [discard_apply, read]
  rfl

/-- A choice is made before its parser runs. -/
theorem ite_run (condition : Prop) [Decidable condition] (first second : Parser α)
    (position : Position)
    : (if condition then first else second) position
      = if condition then first position else second position := by
  split <;> rfl

/-- Looking at all tokens. -/
theorem front_apply (position : Position)
    : front position = some (position.rest, position) :=
  (rfl)

/-- Testing them. -/
theorem sees_apply (test : Tokens → Bool) (position : Position)
    : sees test position = some (test position.rest, position) :=
  (rfl)

/-- A requirement either holds or fails the parser. -/
theorem require_apply (holds : Bool) (position : Position)
    : require holds position = if holds then some ((), position) else none := by
  cases holds <;> rfl

/-- Printing puts tokens behind those that are printed already. -/
theorem print_apply (tokens : Tokens) (position : Position)
    : print tokens position = some ((), ⟨position.rest, tokens.reverse ++ position.printed⟩) :=
  (rfl)

/-- A word, whichever it is. -/
theorem anyWord_apply (text : String) (line : Nat) (rest printed : Tokens)
    : anyWord ⟨.word text line :: rest, printed⟩
      = some ((text, line), ⟨rest, .word text line :: printed⟩) :=
  (rfl)

/-- A word that is no keyword. -/
theorem identifier_apply (position : Position)
    : identifier position = if isName position.rest then anyWord position else none := by
  rw [identifier, bind_apply, sees_apply, Option.bind_some]
  cases named : isName position.rest <;> simp [bind_apply, require_apply]

/-- A given word. -/
theorem keyword_apply (word : String) (position : Position)
    : keyword word position
      = if isWord word position.rest then (anyWord position).map fun (_, after) => ((), after)
        else none := by
  rw [keyword, bind_apply, sees_apply, Option.bind_some]
  cases found : isWord word position.rest <;> simp [bind_apply, require_apply, discard_apply]

/-- A given word that may be missing. -/
theorem optionalWord_apply (word : String) (position : Position)
    : optionalWord word position
      = if isWord word position.rest then (anyWord position).map fun (_, after) => (true, after)
        else some (false, position) := by
  rw [optionalWord, bind_apply, sees_apply, Option.bind_some]
  cases found : isWord word position.rest
  · simp [pure_apply]
  · cases read : anyWord position <;> simp [bind_apply, discard_apply, pure_apply, read]

/-- The same where it is missing. -/
theorem optionalWord_none {word : String} {rest : Tokens} (apart : isWord word rest = false)
    (printed : Tokens)
    : optionalWord word ⟨rest, printed⟩ = some (false, ⟨rest, printed⟩) := by
  rw [optionalWord_apply, apart]
  rfl

/-- A given mark, of one or more characters. -/
theorem mark_apply (operator : String) (position : Position)
    : mark operator position
      = if startsMarks operator.toList position.rest then
          some ((), ⟨position.rest.drop operator.toList.length,
            (marksOf operator.toList).reverse ++ position.printed⟩)
        else none := by
  rw [String.length_toList]
  rfl

/-- A mark that may be missing. -/
theorem optionalMark_apply (operator : String) (position : Position)
    : optionalMark operator position
      = if isMark operator position.rest then (mark operator position).map fun (_, after) => (true, after)
        else some (false, position) := by
  rw [optionalMark, bind_apply, sees_apply, Option.bind_some]
  cases found : isMark operator position.rest
  · simp [pure_apply]
  · cases read : mark operator position <;> simp [bind_apply, pure_apply, read]

/-- A group, whose contents are read to their end. -/
theorem group_apply (delimiter found : Delimiter) (contents : Parser α) (inner rest printed : Tokens)
    : group delimiter contents ⟨.group found inner :: rest, printed⟩
      = if found = delimiter then
          (contents.allPrinted? inner).map fun (result, shown) =>
            (result, ⟨rest, .group delimiter shown :: printed⟩)
        else none :=
  (rfl)

/-- What a parser prints is captured instead of printed. -/
theorem captured_apply (parser : Parser α) (position : Position)
    : captured parser position
      = (parser ⟨position.rest, []⟩).map fun (result, after) =>
          ((result, after.printed.reverse), ⟨after.rest, position.printed⟩) :=
  (rfl)

/-- What a parser reads and answers does not depend on how its reading is printed. -/
theorem rest_of_orKept {parser : Parser (α × Bool)} {position after : Position} {result : α}
    (read : orKept parser position = some (result, after))
    : ∃ kept last, parser position = some ((result, kept), last) ∧ last.rest = after.rest := by
  rw [orKept, bind_apply, asWrittenIf] at read
  cases first : parser position with
  | none => simp [first] at read
  | some answer =>
      obtain ⟨⟨found, kept⟩, last⟩ := answer
      cases kept <;>
        · simp only [first, Option.map_some, Option.bind_some, pure_apply, if_true, if_false,
            Bool.false_eq_true, Option.some.injEq, Prod.mk.injEq] at read
          obtain ⟨rfl, rfl⟩ := read
          exact ⟨_, _, rfl, rfl⟩

/-- The bound has run out. -/
theorem many_zero (test : Tokens → Bool) (item : Parser α) (position : Position)
    : many test item 0 position = some ([], position) :=
  (rfl)

/-- One more item, where the test goes on. -/
theorem many_succ (test : Tokens → Bool) (item : Parser α) (fuel : Nat) (position : Position)
    : many test item (fuel + 1) position
      = if test position.rest then
          (item position).bind fun (first, after) =>
            (many test item fuel after).map fun (others, after) => (first :: others, after)
        else some ([], position) := by
  rw [many, bind_apply, sees_apply, Option.bind_some]
  dsimp only
  split
  · rw [bind_apply]
    congr 1
    funext ⟨first, after⟩
    dsimp only
    rw [bind_apply]
    cases many test item fuel after <;> rfl
  · rfl

/-- Items stop where the test does, whatever bound is left. -/
theorem many_of_stops {test : Tokens → Bool} (item : Parser α) {position : Position}
    (stops : test position.rest = false) (fuel : Nat)
    : many test item fuel position = some ([], position) := by
  cases fuel with
  | zero => exact many_zero ..
  | succ fuel => simp [many_succ, stops]

/-- Items that were read where the test holds are a first one and further ones. -/
theorem exists_of_many_succ {test : Tokens → Bool} {item : Parser α} {fuel : Nat}
    {position after : Position} {results : List α} (continues : test position.rest = true)
    (read : many test item (fuel + 1) position = some (results, after))
    : ∃ first others middle,
        item position = some (first, middle)
        ∧ many test item fuel middle = some (others, after)
        ∧ results = first :: others := by
  rw [many_succ, if_pos continues] at read
  obtain ⟨⟨first, middle⟩, found, read⟩ := Option.bind_eq_some_iff.mp read
  obtain ⟨⟨others, last⟩, further, same⟩ := Option.map_eq_some_iff.mp read
  obtain ⟨rfl, rfl⟩ := Prod.mk.inj same
  exact ⟨first, others, middle, found, further, rfl⟩

/-- The number of tokens bounds the items. -/
theorem manyWhile_apply (test : Tokens → Bool) (item : Parser α) (position : Position)
    : manyWhile test item position = many test item position.rest.length position :=
  (rfl)

end Wiring.Source.Grammar
