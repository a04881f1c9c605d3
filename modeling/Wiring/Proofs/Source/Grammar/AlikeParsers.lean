import Wiring.Proofs.Source.Grammar.AgreeingParsers

/-! Parsers that do not look behind a group. One that stops in front of the group, or stops before, does the
same whatever follows the group: it answers the same, and prints the same on top of what has been printed.
-/

namespace Wiring.Source.Grammar

variable {α β : Type}

/-- Two endings of a token sequence that start with the same group. -/
structure Endings where
  delimiter : Delimiter
  inner : Tokens
  behind : Tokens
  elsewhere : Tokens

namespace Endings

/-- The group that ends the tokens, with what is behind it on the one side. -/
def here (endings : Endings) : Tokens :=
  .group endings.delimiter endings.inner :: endings.behind

/-- The same with what is behind it on the other side. -/
def there (endings : Endings) : Tokens :=
  .group endings.delimiter endings.inner :: endings.elsewhere

end Endings

/-- Whether a parser that leaves one ending does the same as another parser in front of the other ending, if
fewer tokens than the limit stand before it.
-/
structure Alike (endings : Endings) (limit : Nat) (first second : Parser α) : Prop where
  leaves : Leaves first
  same :
    ∀ {read left printed shown : Tokens} {answer : α} (others : Tokens),
      read.length < limit
      → first ⟨read ++ endings.here, printed⟩ = some (answer, ⟨left ++ endings.here, shown⟩)
      → ∃ news,
          shown = news ++ printed
          ∧ second ⟨read ++ endings.there, others⟩
            = some (answer, ⟨left ++ endings.there, news ++ others⟩)

/-- Whether a test does not tell the two endings apart. -/
def Blind (endings : Endings) (test : Tokens → Bool) : Prop :=
  ∀ read, test (read ++ endings.here) = test (read ++ endings.there)

variable {endings : Endings} {limit : Nat} {first second : Parser α} {next other : α → Parser β}

/-- A parser that takes its tokens whatever is behind them reads alike in front of both endings. -/
theorem Takes.alike (takes : Takes first)
    : Alike endings limit first first where
  leaves := takes.eats.leaves
  same others _ read := by
    obtain ⟨taken, news, -, rest, shown, always⟩ := takes _ _ _ read
    refine ⟨news, shown, ?_⟩
    have same := List.append_cancel_right (rest.trans (List.append_assoc ..).symm)
    rw [same, List.append_assoc]
    exact always _ others

-----------------------------------------------------------------------------------------
-- Sequences
-----------------------------------------------------------------------------------------

namespace Alike

/-- A parser that reads nothing and prints on top of what has been printed. -/
theorem of_still {parser : Parser α} (answer : α) (news : Tokens)
    (still
      : ∀ position, parser position = some (answer, ⟨position.rest, news ++ position.printed⟩))
    : Alike endings limit parser parser where
  leaves := .of_same fun before found after read => by
    rw [still] at read
    obtain ⟨rfl, rfl⟩ := Prod.mk.inj (Option.some.inj read)
    rfl
  same others _ read := by
    rw [still] at read
    obtain ⟨rfl, same⟩ := Prod.mk.inj (Option.some.inj read)
    obtain ⟨rest, rfl⟩ := Position.mk.inj same
    obtain rfl := List.append_cancel_right rest
    exact ⟨news, rfl, still _⟩

/-- An answer from no tokens is the same on both sides. -/
theorem pure (answer : α)
    : Alike endings limit (pure answer) (pure answer) :=
  of_still answer [] fun _ => rfl

/-- A failure reads nothing on either side. -/
theorem failure : Alike endings limit (failure : Parser α) failure where
  leaves := fun _ _ _ read => nomatch read
  same _ _ read := nomatch read

/-- Where a first parser stops, the ending is still to be read. -/
theorem exists_middle (leaves : ∀ answer, Leaves (next answer)) {read left printed shown : Tokens}
    {answer : β}
    (whole : (first >>= next) ⟨read ++ endings.here, printed⟩ = some (answer, ⟨left ++ endings.here, shown⟩))
    : ∃ found between middle,
        first ⟨read ++ endings.here, printed⟩ = some (found, ⟨between ++ endings.here, middle⟩)
        ∧ next found ⟨between ++ endings.here, middle⟩ = some (answer, ⟨left ++ endings.here, shown⟩) := by
  obtain ⟨found, ⟨_, middle⟩, here, rest⟩ := exists_of_bind whole
  obtain ⟨between, same⟩ := leaves found _ _ _ rest
  obtain rfl := same.symm.trans (List.append_assoc ..).symm
  exact ⟨found, between ++ left, middle, here, rest⟩

/-- Parsers one after the other read alike if both do: the second one starts in front of the same
endings.
-/
theorem bind (alike : Alike endings limit first second)
    (follows : ∀ answer, Alike endings limit (next answer) (other answer))
    : Alike endings limit (first >>= next) (second >>= other) where
  leaves := leaves_of_agree fun _ => alike.leaves.agree.bind fun answer => (follows answer).leaves.agree
  same others short whole := by
    obtain ⟨found, between, middle, here, rest⟩ := exists_middle (fun found => (follows found).leaves) whole
    have fewer := (alike.leaves _ _ _ here).length_le
    simp only [List.length_append, Nat.add_le_add_iff_right] at fewer
    obtain ⟨news, rfl, hereToo⟩ := alike.same others short here
    obtain ⟨more, rfl, restToo⟩ :=
      (follows found).same (news ++ others) (Nat.lt_of_le_of_lt fewer short) rest
    refine ⟨more ++ news, (List.append_assoc ..).symm, ?_⟩
    rw [bind_of_some hereToo, List.append_assoc more]
    exact restToo

/-- Behind a token, fewer tokens stand before the ending. -/
theorem eat (alike : Alike endings (limit + 1) first second) (eats : Eats first)
    (follows : ∀ answer, Alike endings limit (next answer) (other answer))
    : Alike endings (limit + 1) (first >>= next) (second >>= other) where
  leaves := leaves_of_agree fun _ => alike.leaves.agree.bind fun answer => (follows answer).leaves.agree
  same others short whole := by
    obtain ⟨found, between, middle, here, rest⟩ := exists_middle (fun found => (follows found).leaves) whole
    obtain ⟨token, left⟩ := eats _ _ _ here
    have fewer := left.length_le
    simp only [List.length_cons, List.length_append] at fewer
    obtain ⟨news, rfl, hereToo⟩ := alike.same others short here
    obtain ⟨more, rfl, restToo⟩ := (follows found).same (news ++ others) (by omega) rest
    refine ⟨more ++ news, (List.append_assoc ..).symm, ?_⟩
    rw [bind_of_some hereToo, List.append_assoc more]
    exact restToo

/-- Mapping keeps that. -/
theorem map {f : α → β} (alike : Alike endings limit first second)
    : Alike endings limit (f <$> first) (f <$> second) := by
  rw [map_eq_pure_bind, map_eq_pure_bind]
  exact alike.bind fun _ => .pure _

/-- So does dropping the answer. -/
theorem discard (alike : Alike endings limit first second)
    : Alike endings limit (discard first : Parser PUnit) (discard second) :=
  alike.map

/-- So does a choice that both sides make alike. -/
theorem ite {condition : Prop} [Decidable condition] {third fourth : Parser α}
    (holds : condition → Alike endings limit first second)
    (fails : ¬condition → Alike endings limit third fourth)
    : Alike endings limit (if condition then first else third) (if condition then second else fourth) := by
  split
  · rename_i condition
    exact holds condition
  · rename_i condition
    exact fails condition

/-- One of two parsers, and what follows either. -/
theorem choice {condition : Prop} [Decidable condition] {third fourth : Parser α}
    (holds : Alike endings limit first second) (fails : Alike endings limit third fourth)
    (follows : ∀ answer, Alike endings limit (next answer) (other answer))
    : Alike endings limit (if condition then first >>= next else third >>= next)
        (if condition then second >>= other else fourth >>= other) :=
  .ite (fun _ => holds.bind follows) fun _ => fails.bind follows

/-- A parser that may be passed over, and what follows it. -/
theorem perhaps {condition : Prop} [Decidable condition] {first second : Parser PUnit}
    {next other : PUnit → Parser β} (holds : Alike endings limit first second)
    (follows : ∀ answer, Alike endings limit (next answer) (other answer))
    : Alike endings limit (if condition then first >>= next else next .unit)
        (if condition then second >>= other else other .unit) :=
  .ite (fun _ => holds.bind follows) fun _ => follows .unit

-----------------------------------------------------------------------------------------
-- Looking ahead
-----------------------------------------------------------------------------------------

/-- A test that is blind to what is behind the endings answers alike. -/
theorem look {test : Tokens → Bool} (blind : Blind endings test)
    : Alike endings limit (sees test) (sees test) where
  leaves := leaves_sees test
  same {read left _ _ _} others _ found := by
    rw [sees_apply] at found
    obtain ⟨rfl, same⟩ := Prod.mk.inj (Option.some.inj found)
    obtain ⟨rest, rfl⟩ := Position.mk.inj same
    obtain rfl := List.append_cancel_right rest
    exact ⟨[], rfl, by rw [sees_apply, blind read]; rfl⟩

/-- A requirement does not look at tokens. -/
theorem require (holds : Bool)
    : Alike endings limit (require holds) (require holds) := by
  cases holds
  · exact .failure
  · exact .pure ()

/-- Nor does printing. -/
theorem print (tokens : Tokens)
    : Alike endings limit (print tokens) (print tokens) :=
  of_still () tokens.reverse fun _ => rfl

/-- The tokens that are left end one way or the other. -/
theorem front {next other : Tokens → Parser β} (leaves : Leaves (Grammar.front >>= next))
    (follows
      : ∀ read,
          Alike endings (read.length + 1) (next (read ++ endings.here)) (other (read ++ endings.there)))
    : Alike endings limit (Grammar.front >>= next) (Grammar.front >>= other) where
  leaves
  same {read _ _ _ _} others _ found := (follows read).same others (Nat.lt_succ_self _) found

/-- A test of the tokens that are left. -/
theorem when {test : Tokens → Bool} (blind : Blind endings test) {read : Tokens} {third fourth : Parser α}
    (holds : Alike endings limit first second) (fails : Alike endings limit third fourth)
    : Alike endings limit (if test (read ++ endings.here) then first else third)
        (if test (read ++ endings.there) then second else fourth) := by
  rw [← blind read]
  exact .ite (fun _ => holds) fun _ => fails

end Alike

-----------------------------------------------------------------------------------------
-- Tests
-----------------------------------------------------------------------------------------

namespace Blind

variable {test look : Tokens → Bool}

/-- Blind tests may be joined by and. -/
theorem and (blind : Blind endings test) (blindToo : Blind endings look)
    : Blind endings fun tokens => test tokens && look tokens := by
  intro read
  dsimp only
  rw [blind, blindToo]

/-- They may be joined by or. -/
theorem or (blind : Blind endings test) (blindToo : Blind endings look)
    : Blind endings fun tokens => test tokens || look tokens := by
  intro read
  dsimp only
  rw [blind, blindToo]

/-- They may be negated. -/
theorem not (blind : Blind endings test)
    : Blind endings fun tokens => !test tokens := by
  intro read
  dsimp only
  rw [blind]

/-- A test that looks at nothing is blind. -/
theorem const (holds : Bool)
    : Blind endings fun _ => holds :=
  fun _ => rfl

/-- A test of no more than the first token. -/
theorem of_first (same : ∀ token rest other, test (token :: rest) = test (token :: other))
    : Blind endings test := by
  intro read
  cases read with
  | nil => exact same ..
  | cons token read => exact same ..

/-- A test of no more than two tokens, and of one where that is a group. -/
theorem of_two
    (group : ∀ delimiter inner rest other,
      test (.group delimiter inner :: rest) = test (.group delimiter inner :: other))
    (same : ∀ first second rest other, test (first :: second :: rest) = test (first :: second :: other))
    : Blind endings test := by
  intro read
  rcases read with _ | ⟨first, _ | ⟨second, read⟩⟩
  · exact group ..
  · exact same ..
  · exact same ..

/-- A test of what stands behind tokens that are no group. -/
theorem behind (blind : Blind endings test) {count : Nat}
    (reaches : ∀ read, test (read ++ endings.here) = true → count ≤ read.length)
    (blindToo : Blind endings look)
    : Blind endings fun tokens => test tokens && look (tokens.drop count) := by
  intro read
  dsimp only
  rw [← blind read]
  cases passes : test (read ++ endings.here) with
  | false => rfl
  | true =>
      have long := reaches read passes
      rw [Bool.true_and, Bool.true_and, List.drop_append_of_le_length long,
        List.drop_append_of_le_length long]
      exact blindToo _

/-- A test of what stands behind a token that is no group. -/
theorem behindOne (same : ∀ token rest other, test (token :: rest) = test (token :: other))
    (ungrouped : ∀ delimiter inner rest, test (.group delimiter inner :: rest) = false)
    (blind : Blind endings look)
    : Blind endings fun tokens => test tokens && look tokens.tail := by
  intro read
  dsimp only
  cases read with
  | nil =>
      rw [Endings.here, Endings.there, List.nil_append, List.nil_append, ungrouped, ungrouped]
      rfl
  | cons token read =>
      rw [List.cons_append, List.cons_append, List.tail_cons, List.tail_cons, blind read]
      rw [same token (read ++ endings.here)]

end Blind

/-- A word is tested by the first token. -/
theorem blind_isWord (word : String)
    : Blind endings (isWord word) :=
  .of_first fun token _ _ => by cases token <;> rfl

/-- So are several words. -/
theorem blind_isOneOf (words : List String)
    : Blind endings (isOneOf words) :=
  .of_first fun token _ _ => by cases token <;> rfl

/-- So is any word. -/
theorem blind_isAnyWord : Blind endings isAnyWord :=
  .of_first fun token _ _ => by cases token <;> rfl

/-- So is a name. -/
theorem blind_isName : Blind endings isName :=
  .of_first fun token _ _ => by cases token <;> rfl

/-- So is a group. -/
theorem blind_isGroup (delimiter : Delimiter)
    : Blind endings (isGroup delimiter) :=
  .of_first fun token _ _ => by cases token <;> rfl

/-- So is a quoted text. -/
theorem blind_isText : Blind endings isText :=
  .of_first fun token _ _ => by cases token <;> rfl

/-- Neither ending is empty, since both have the group. -/
theorem blind_isEmpty : Blind endings List.isEmpty :=
  .of_first fun _ _ _ => rfl

/-- A lifetime is tested by two tokens, of which a group is neither. -/
theorem blind_isLifetime : Blind endings isLifetime :=
  .of_two (fun _ _ _ _ => rfl) fun first second rest other => by
    unfold isLifetime
    split <;> simp_all

/-- So both stand in front of the group. -/
theorem two_le_of_isLifetime {read : Tokens} (lifetime : isLifetime (read ++ endings.here) = true)
    : 2 ≤ read.length := by
  rcases read with _ | ⟨first, _ | ⟨second, read⟩⟩
  · contradiction
  · cases first <;> simp [isLifetime, Endings.here] at lifetime
  · simp

/-- A literal is tested by two tokens, as it may have a sign; a group is no part of it. -/
theorem blind_isLiteral : Blind endings isLiteral :=
  .of_two (fun _ _ _ _ => rfl) fun first second rest other => by
    cases first with
    | mark char joint =>
        by_cases minus : char = '-'
        · subst minus
          cases second <;> rfl
        · simp [isLiteral, isOneOf, minus]
    | _ => rfl

/-- A group is no part of an operator. -/
theorem length_le_of_startsMarks {chars : List Char} {read : Tokens}
    (starts : startsMarks chars (read ++ endings.here) = true)
    : chars.length ≤ read.length := by
  induction chars generalizing read with
  | nil => exact Nat.zero_le _
  | cons char chars ih =>
      cases read with
      | nil => cases chars <;> simp [startsMarks, Endings.here] at starts
      | cons token read =>
          cases chars with
          | nil => simp
          | cons next chars =>
              have later : startsMarks (next :: chars) (read ++ endings.here) = true := by
                cases token with
                | mark found joint => cases joint <;> simp_all [startsMarks]
                | _ => simp [startsMarks] at starts
              exact Nat.succ_le_succ (ih later)

/-- A mark is tested by its characters, of which a group is none. -/
theorem blind_isMark (operator : String)
    : Blind endings (isMark operator) := by
  intro read
  unfold isMark
  induction operator.toList generalizing read with
  | nil => simp [startsMarks]
  | cons char chars ih =>
      cases read with
      | nil => cases chars <;> rfl
      | cons token read =>
          cases chars with
          | nil => cases token <;> rfl
          | cons next chars =>
              cases token with
              | mark found joint =>
                  cases joint with
                  | false => rfl
                  | true => simp only [List.cons_append, startsMarks, ih read]
              | _ => rfl

/-- A lone colon is tested by two marks. -/
theorem blind_isLoneColon : Blind endings isLoneColon :=
  (blind_isMark ":").and (blind_isMark "::").not

/-- So is the mark of a call. -/
theorem blind_isCallMark : Blind endings isCallMark :=
  (blind_isMark "!").and (blind_isMark "!=").not

/-- The start of a path is tested by words and marks. -/
theorem blind_startsPath : Blind endings startsPath :=
  ((blind_isName.or (blind_isOneOf pathWords)).or (blind_isMark "::")).or (blind_isMark "<")

/-- A test of what stands behind a word. -/
theorem Blind.behindWord {look : Tokens → Bool} (word : String) (blind : Blind endings look)
    : Blind endings fun tokens => isWord word tokens && look tokens.tail :=
  .behindOne (fun token _ _ => by cases token <;> rfl) (fun _ _ _ => rfl) blind

/-- A test of what stands behind a name. -/
theorem Blind.behindName {look : Tokens → Bool} (blind : Blind endings look)
    : Blind endings fun tokens => isName tokens && look tokens.tail :=
  .behindOne (fun token _ _ => by cases token <;> rfl) (fun _ _ _ => rfl) blind

/-- A test of what stands behind an operator. -/
theorem Blind.behindMark {look : Tokens → Bool} (operator : String) {count : Nat}
    (long : operator.toList.length = count) (blind : Blind endings look)
    : Blind endings fun tokens => isMark operator tokens && look (tokens.drop count) :=
  (blind_isMark operator).behind (fun _ starts => long ▸ length_le_of_startsMarks starts) blind

/-- A test of what stands behind a lifetime. -/
theorem Blind.behindLifetime {look : Tokens → Bool} (blind : Blind endings look)
    : Blind endings fun tokens => isLifetime tokens && look (tokens.drop 2) :=
  blind_isLifetime.behind (fun _ => two_le_of_isLifetime) blind

-----------------------------------------------------------------------------------------
-- Parsers of parsers
-----------------------------------------------------------------------------------------

namespace Alike

/-- A mark is read alike, be it empty or not. -/
theorem mark (operator : String)
    : Alike endings limit (mark operator) (mark operator) := by
  cases empty : operator.toList.isEmpty with
  | false => exact (takes_mark empty).alike
  | true =>
      have nothing : operator = "" := by simpa using empty
      subst nothing
      exact of_still () [] fun _ => rfl

/-- So is a word that may be missing. -/
theorem optionalWord (word : String)
    : Alike endings limit (optionalWord word) (optionalWord word) :=
  .bind (.look (blind_isWord word)) fun _ =>
    .ite (fun _ => takes_anyWord.alike.discard.bind fun _ => .pure true) fun _ => .pure false

/-- So is a mark that may be. -/
theorem optionalMark (operator : String)
    : Alike endings limit (optionalMark operator) (optionalMark operator) :=
  .bind (.look (blind_isMark operator)) fun _ =>
    .ite (fun _ => (mark operator).bind fun _ => .pure true) fun _ => .pure false

/-- Behind an operator that may be left out, fewer tokens stand before the ending if it is there. -/
theorem optionalMarkThen {operator : String} (some : operator.toList.isEmpty = false)
    {next other : Bool → Parser β} (marked : Alike endings limit (next true) (other true))
    (unmarked : Alike endings (limit + 1) (next false) (other false))
    : Alike endings (limit + 1) (Grammar.optionalMark operator >>= next)
        (Grammar.optionalMark operator >>= other) := by
  rw [optionalMark_bind, optionalMark_bind]
  refine .bind (.look (blind_isMark operator)) fun _ => .ite (fun _ => ?_) fun _ => unmarked
  exact .eat (mark operator) (eats_mark some) fun _ => marked

/-- Capturing changes what is printed on both sides alike. -/
theorem captured (alike : Alike endings limit first second)
    : Alike endings limit (captured first) (captured second) where
  leaves := leaves_of_agree fun _ => alike.leaves.agree.captured
  same others short read := by
    rw [captured_apply] at read
    obtain ⟨⟨found, rest, shown⟩, inner, result⟩ := Option.map_eq_some_iff.mp read
    obtain ⟨rfl, after⟩ := Prod.mk.inj result
    obtain ⟨rfl, rfl⟩ := Position.mk.inj after
    obtain ⟨news, same, innerToo⟩ := alike.same [] short inner
    exact ⟨[], rfl, by rw [captured_apply, innerToo, same]; rfl⟩

/-- So does printing nothing. -/
theorem silently (alike : Alike endings limit first second)
    : Alike endings limit (silently first) (silently second) where
  leaves := leaves_of_agree fun _ => alike.leaves.agree.silently
  same others short read := by
    obtain ⟨⟨found, rest, shown⟩, inner, result⟩ := Option.map_eq_some_iff.mp read
    obtain ⟨rfl, after⟩ := Prod.mk.inj result
    obtain ⟨rfl, rfl⟩ := Position.mk.inj after
    obtain ⟨news, same, innerToo⟩ := alike.same others short inner
    exact ⟨[], rfl, by rw [Grammar.silently, innerToo]; rfl⟩

/-- What is printed as it stands is what stood before the endings. What is taken is counted from the
front, and both endings have been left.
-/
theorem asWrittenIf (test : α → Bool) (alike : Alike endings limit first second)
    : Alike endings limit (asWrittenIf test first) (asWrittenIf test second) where
  leaves := leaves_of_agree fun _ => alike.leaves.agree.asWrittenIf test
  same {read left _ _ _} others short found := by
    obtain ⟨⟨answer, rest, shown⟩, inner, result⟩ := Option.map_eq_some_iff.mp found
    have taken (ending : Tokens)
        : (read ++ ending).take ((read ++ ending).length - (left ++ ending).length)
          = read.take (read.length - left.length) := by
      rw [List.length_append, List.length_append, Nat.add_sub_add_right,
        List.take_append_of_le_length (Nat.sub_le ..)]
    dsimp only at result
    split at result
    · rename_i passes
      obtain ⟨rfl, after⟩ := Prod.mk.inj result
      obtain ⟨rfl, rfl⟩ := Position.mk.inj after
      obtain ⟨news, same, innerToo⟩ := alike.same others short inner
      refine ⟨_, rfl, ?_⟩
      rw [Grammar.asWrittenIf, innerToo, Option.map_some]
      dsimp only
      rw [if_pos passes, taken, taken]
    · rename_i fails
      obtain ⟨rfl, after⟩ := Prod.mk.inj result
      obtain ⟨rfl, rfl⟩ := Position.mk.inj after
      obtain ⟨news, same, innerToo⟩ := alike.same others short inner
      refine ⟨news, same, ?_⟩
      rw [Grammar.asWrittenIf, innerToo, Option.map_some]
      dsimp only
      rw [if_neg fails]

/-- So does printing what was written. -/
theorem asWritten (alike : Alike endings limit first second)
    : Alike endings limit (asWritten first) (asWritten second) :=
  alike.asWrittenIf _

-----------------------------------------------------------------------------------------
-- Lists
-----------------------------------------------------------------------------------------

variable {item : Parser α} {test : Tokens → Bool}

/-- In front of nothing but the endings there is no more to show than that the last tokens are left. -/
theorem of_leaves (leaves : Leaves first)
    : Alike endings 0 first second where
  leaves
  same _ short _ := absurd short (Nat.not_lt_zero _)

/-- Items one after the other, however many there may be. The induction is on how many tokens stand before
the ending.
-/
theorem many (blind : Blind endings test) (eats : Eats item)
    (alike : ∀ limit, Alike endings limit item item) {fuel more : Nat} (enough : limit ≤ fuel)
    (enoughToo : limit ≤ more)
    : Alike endings limit (many test item fuel) (many test item more) := by
  induction limit generalizing fuel more with
  | zero => exact .of_leaves (leaves_of_agree fun _ => eats.agree.many test fuel)
  | succ limit ih =>
      obtain ⟨fuel, rfl⟩ := Nat.exists_eq_add_of_le' (Nat.le_of_add_left_le enough)
      obtain ⟨more, rfl⟩ := Nat.exists_eq_add_of_le' (Nat.le_of_add_left_le enoughToo)
      refine .bind (.look blind) fun _ => .ite (fun _ => .eat (alike _) eats fun _ => ?_) fun _ => .pure []
      exact (ih (Nat.le_of_succ_le_succ enough) (Nat.le_of_succ_le_succ enoughToo)).bind fun _ => .pure _

/-- The tokens in front of an ending are fewer than all of them, so they bound the items as well. -/
theorem length_le (read ending : Tokens) (token : Token)
    : read.length + 1 ≤ (read ++ token :: ending).length := by
  simp

/-- Items are read alike: on either side, the tokens in front of the ending bound them. -/
theorem manyWhile (blind : Blind endings test) (eats : Eats item)
    (alike : ∀ limit, Alike endings limit item item)
    : Alike endings limit (manyWhile test item) (manyWhile test item) :=
  .front (leaves_of_agree fun _ => eats.agree.manyWhile test) fun _ =>
    .many blind eats alike (length_le ..) (length_le ..)

/-- Items with separators between them, however many there may be. The induction is on how many tokens stand
before the ending.
-/
theorem separatedUpTo {separator : String} (some : separator.toList.isEmpty = false)
    (blind : Blind endings test) (alike : ∀ limit, Alike endings limit item item) {fuel more : Nat}
    (enough : limit ≤ fuel) (enoughToo : limit ≤ more)
    : Alike endings limit (separatedUpTo test separator item fuel)
        (separatedUpTo test separator item more) := by
  induction limit generalizing fuel more with
  | zero => exact .of_leaves (leaves_of_agree fun _ => (alike 0).leaves.agree.separatedUpTo test _ fuel)
  | succ limit ih =>
      obtain ⟨fuel, rfl⟩ := Nat.exists_eq_add_of_le' (Nat.le_of_add_left_le enough)
      obtain ⟨more, rfl⟩ := Nat.exists_eq_add_of_le' (Nat.le_of_add_left_le enoughToo)
      refine .bind (.look blind) fun _ => .ite (fun _ => .pure []) fun _ => (alike _).bind fun _ => ?_
      refine .bind (.look blind) fun _ => .ite (fun _ => .pure _) fun _ => ?_
      refine .eat (.mark separator) (eats_mark some) fun _ => ?_
      exact (ih (Nat.le_of_succ_le_succ enough) (Nat.le_of_succ_le_succ enoughToo)).bind fun _ => .pure _

/-- So are items with separators between them. -/
theorem separated {separator : String} (some : separator.toList.isEmpty = false)
    (blind : Blind endings test) (alike : ∀ limit, Alike endings limit item item)
    : Alike endings limit (separated test separator item) (separated test separator item) :=
  .front (leaves_of_agree fun _ => (alike 0).leaves.agree.separated test _) fun _ =>
    .separatedUpTo some blind alike (length_le ..) (length_le ..)

/-- Items as long as a separator follows, however many there may be. The induction is on how many tokens
stand before the ending.
-/
theorem joinedUpTo {separator : String} (some : separator.toList.isEmpty = false)
    (blind : Blind endings test) (alike : ∀ limit, Alike endings limit item item) {fuel more : Nat}
    (enough : limit ≤ fuel) (enoughToo : limit ≤ more)
    : Alike endings limit (joinedUpTo test separator item fuel) (joinedUpTo test separator item more) := by
  induction limit generalizing fuel more with
  | zero => exact .of_leaves (leaves_of_agree fun _ => (alike 0).leaves.agree.joinedUpTo test _ fuel)
  | succ limit ih =>
      obtain ⟨fuel, rfl⟩ := Nat.exists_eq_add_of_le' (Nat.le_of_add_left_le enough)
      obtain ⟨more, rfl⟩ := Nat.exists_eq_add_of_le' (Nat.le_of_add_left_le enoughToo)
      refine .bind (.look blind) fun _ => .ite (fun _ => .pure []) fun _ => (alike _).bind fun _ => ?_
      refine .optionalMarkThen some ?_ (.pure _)
      exact (ih (Nat.le_of_succ_le_succ enough) (Nat.le_of_succ_le_succ enoughToo)).bind fun _ => .pure _

/-- So are items as long as separators go on. -/
theorem joined {separator : String} (some : separator.toList.isEmpty = false)
    (blind : Blind endings test) (alike : ∀ limit, Alike endings limit item item)
    : Alike endings limit (joined test separator item) (joined test separator item) :=
  .front (leaves_of_agree fun _ => (alike 0).leaves.agree.joined test _) fun _ =>
    .joinedUpTo some blind alike (length_le ..) (length_le ..)

end Alike

end Wiring.Source.Grammar
