import Wiring.Proofs.Source.ParserSteps
import Wiring.Source.Grammar.Part

/-! Parsers that do the same in front of few tokens. Two parsers made alike of others agree where these do,
and those inside need to agree on fewer tokens only, once a token is read in front of them.
-/

namespace Wiring.Source.Grammar

open Token

variable {α β : Type}

-----------------------------------------------------------------------------------------
-- Tokens that are left
-----------------------------------------------------------------------------------------

/-- Each token has weight. -/
theorem weight_pos (token : Token)
    : 0 < token.weight := by
  cases token <;> simp [weight]

/-- Weights add up. -/
theorem weightOf_append (tokens others : Tokens)
    : weightOf (tokens ++ others) = weightOf tokens + weightOf others := by
  induction tokens with
  | nil => simp [weightOf]
  | cons token rest ih => simp only [List.cons_append, weightOf, ih, Nat.add_assoc]

/-- The last ones of some tokens are no heavier than all of them. -/
theorem weightOf_le_of_suffix {rest tokens : Tokens} (left : rest <:+ tokens)
    : weightOf rest ≤ weightOf tokens := by
  obtain ⟨read, rfl⟩ := left
  rw [weightOf_append]
  exact Nat.le_add_left ..

/-- Whether a parser leaves the last ones of its tokens. -/
def Leaves (parser : Parser α) : Prop :=
  ∀ before answer after, parser before = some (answer, after) → after.rest <:+ before.rest

/-- Whether a parser reads a token at least and leaves the last ones. -/
def Eats (parser : Parser α) : Prop :=
  ∀ before answer after,
    parser before = some (answer, after) → ∃ token, token :: after.rest <:+ before.rest

/-- Whether a parser reads some tokens in front of any others alike, and prints alike on top of what has been
printed.
-/
def Takes (parser : Parser α) : Prop :=
  ∀ before answer after,
    parser before = some (answer, after)
    → ∃ taken news,
        taken ≠ []
        ∧ before.rest = taken ++ after.rest
        ∧ after.printed = news ++ before.printed
        ∧ ∀ rest printed, parser ⟨taken ++ rest, printed⟩ = some (answer, ⟨rest, news ++ printed⟩)

variable {limit : Nat} {first second : Parser α} {next other : α → Parser β}

/-- A parser that takes tokens reads one at least. -/
theorem Takes.eats (takes : Takes first)
    : Eats first := by
  intro before answer after read
  obtain ⟨taken, _, filled, same, _⟩ := takes before answer after read
  obtain ⟨init, last, rfl⟩ := taken.eq_nil_or_concat.resolve_left filled
  exact ⟨last, init, by rw [same, List.concat_eq_append, List.append_assoc, List.singleton_append]⟩

/-- A parser that reads a token leaves the last ones. -/
theorem Eats.leaves (eats : Eats first)
    : Leaves first := by
  intro before answer after read
  obtain ⟨token, left⟩ := eats before answer after read
  exact (List.suffix_cons token after.rest).trans left

/-- What it leaves is lighter, by the token. -/
theorem Eats.weightOf_lt (eats : Eats first) {before after : Position} {answer : α}
    (read : first before = some (answer, after))
    : weightOf after.rest < weightOf before.rest := by
  obtain ⟨token, left⟩ := eats before answer after read
  have least := weightOf_le_of_suffix left
  have positive := weight_pos token
  rw [weightOf] at least
  omega

/-- What leads to a parser that reads a token reads one, too. -/
theorem Eats.later (leaves : Leaves first) (eats : ∀ answer, Eats (next answer))
    : Eats (first >>= next) := by
  intro before answer after read
  obtain ⟨found, middle, here, rest⟩ := exists_of_bind read
  obtain ⟨token, left⟩ := eats found middle answer after rest
  exact ⟨token, left.trans (leaves before found middle here)⟩

/-- What follows a parser that reads a token does not change that. -/
theorem Eats.followed (eats : Eats first) (leaves : ∀ answer, Leaves (next answer))
    : Eats (first >>= next) := by
  intro before answer after read
  obtain ⟨found, middle, here, rest⟩ := exists_of_bind read
  obtain ⟨token, left⟩ := eats before found middle here
  obtain ⟨further, same⟩ := leaves found middle answer after rest
  obtain rfl | ⟨init, last, rfl⟩ := further.eq_nil_or_concat
  · rw [List.nil_append] at same
    exact ⟨token, same ▸ left⟩
  · refine ⟨last, List.IsSuffix.trans ⟨init, ?_⟩ ((List.suffix_cons ..).trans left)⟩
    simpa using same

/-- Whether two parsers do the same in front of tokens lighter than a limit, and leave the last ones. -/
def Agree (limit : Nat) (first second : Parser α) : Prop :=
  ∀ before, weightOf before.rest < limit →
    first before = second before
      ∧ ∀ answer after, first before = some (answer, after) → after.rest <:+ before.rest

/-- What agrees in front of heavier tokens agrees in front of lighter ones. -/
theorem Agree.mono {less : Nat} (agree : Agree limit first second) (lower : less ≤ limit)
    : Agree less first second :=
  fun before light => agree before (Nat.lt_of_lt_of_le light lower)

/-- The same for one step. -/
theorem Agree.lower (agree : Agree (limit + 1) first second)
    : Agree limit first second :=
  agree.mono (Nat.le_succ limit)

/-- A parser that leaves the last ones of its tokens agrees with itself. -/
theorem Leaves.agree (leaves : Leaves first)
    : Agree limit first first :=
  fun before _ => ⟨rfl, leaves before⟩

/-- So does one that reads a token. -/
theorem Eats.agree (eats : Eats first)
    : Agree limit first first :=
  eats.leaves.agree

/-- A parser that agrees with itself, however many tokens there are, leaves the last ones. -/
theorem leaves_of_agree (agree : ∀ limit, Agree limit first first)
    : Leaves first :=
  fun before => (agree _ before (Nat.lt_succ_self _)).2

-----------------------------------------------------------------------------------------
-- Sequences
-----------------------------------------------------------------------------------------

namespace Agree

/-- An answer from no tokens is the same on both sides. -/
theorem pure (answer : α)
    : Agree limit (pure answer) (pure answer) :=
  fun before _ => ⟨rfl, fun found after read => by
    obtain ⟨rfl, rfl⟩ := Prod.mk.inj (Option.some.inj read)
    exact List.suffix_refl _⟩

/-- So is a failure. -/
theorem failure : Agree limit (failure : Parser α) failure :=
  fun _ _ => ⟨rfl, fun _ _ read => nomatch read⟩

/-- Parsers one after the other agree if both pairs do: tokens only get lighter. -/
theorem bind (agree : Agree limit first second)
    (follows : ∀ answer, Agree limit (next answer) (other answer))
    : Agree limit (first >>= next) (second >>= other) := by
  intro before light
  obtain ⟨same, leaves⟩ := agree before light
  rw [bind_apply, bind_apply, ← same]
  cases read : first before with
  | none => exact ⟨rfl, fun _ _ contrary => nomatch contrary⟩
  | some result =>
      obtain ⟨answer, middle⟩ := result
      have left := leaves answer middle read
      obtain ⟨sameThen, leavesThen⟩ :=
        follows answer middle (Nat.lt_of_le_of_lt (weightOf_le_of_suffix left) light)
      exact ⟨sameThen, fun found after further => (leavesThen found after further).trans left⟩

/-- Behind a token, the tokens are lighter than those in front of it. -/
theorem eat (eats : Eats first) (follows : ∀ answer, Agree limit (next answer) (other answer))
    : Agree (limit + 1) (first >>= next) (first >>= other) := by
  intro before light
  rw [bind_apply, bind_apply]
  cases read : first before with
  | none => exact ⟨rfl, fun _ _ contrary => nomatch contrary⟩
  | some result =>
      obtain ⟨answer, middle⟩ := result
      have lighter := Nat.lt_of_lt_of_le (eats.weightOf_lt read) (Nat.le_of_lt_succ light)
      obtain ⟨sameThen, leavesThen⟩ := follows answer middle lighter
      refine ⟨sameThen, fun found after further => ?_⟩
      exact (leavesThen found after further).trans (eats.leaves before answer middle read)

/-- A parser that reads nothing nested, and what follows it. -/
theorem after (leaves : Leaves first) (follows : ∀ answer, Agree limit (next answer) (other answer))
    : Agree limit (first >>= next) (first >>= other) :=
  .bind leaves.agree follows

/-- Mapping keeps agreement. -/
theorem map {f : α → β} (agree : Agree limit first second)
    : Agree limit (f <$> first) (f <$> second) := by
  rw [map_eq_pure_bind, map_eq_pure_bind]
  exact agree.bind fun _ => .pure _

/-- So does dropping the answer. -/
theorem discard (agree : Agree limit first second)
    : Agree limit (discard first : Parser PUnit) (discard second) :=
  agree.map

/-- A parser whose answer is thrown away, and what follows it. -/
theorem skip {next other : PUnit → Parser β} (leaves : Leaves first)
    (follows : ∀ answer, Agree limit (next answer) (other answer))
    : Agree limit (Functor.discard first >>= next) (Functor.discard first >>= other) :=
  leaves.agree.discard.bind follows

/-- Choices agree if both sides do. -/
theorem ite {condition : Prop} [Decidable condition] {third fourth : Parser α}
    (holds : condition → Agree limit first second) (fails : ¬condition → Agree limit third fourth)
    : Agree limit (if condition then first else third) (if condition then second else fourth) := by
  split
  · rename_i condition
    exact holds condition
  · rename_i condition
    exact fails condition

/-- One of two parsers, and what follows either. -/
theorem choice {condition : Prop} [Decidable condition] {third fourth : Parser α}
    (holds : Agree limit first second) (fails : Agree limit third fourth)
    (follows : ∀ answer, Agree limit (next answer) (other answer))
    : Agree limit (if condition then first >>= next else third >>= next)
        (if condition then second >>= other else fourth >>= other) :=
  .ite (fun _ => holds.bind follows) fun _ => fails.bind follows

/-- A parser that may be passed over, and what follows it. -/
theorem perhaps {condition : Prop} [Decidable condition] {first second : Parser PUnit}
    {next other : PUnit → Parser β} (holds : Agree limit first second)
    (follows : ∀ answer, Agree limit (next answer) (other answer))
    : Agree limit (if condition then first >>= next else next .unit)
        (if condition then second >>= other else other .unit) :=
  .ite (fun _ => holds.bind follows) fun _ => follows .unit

/-- Two parsers that may be passed over, and what follows them. -/
theorem perhapsBoth {condition : Prop} [Decidable condition] {third fourth : Parser PUnit}
    {next other : PUnit → Parser β} (holds : Agree limit first second)
    (holdsToo : Agree limit third fourth)
    (follows : ∀ answer, Agree limit (next answer) (other answer))
    : Agree limit (if condition then first >>= fun _ => third >>= next else next .unit)
        (if condition then second >>= fun _ => fourth >>= other else other .unit) :=
  .ite (fun _ => holds.bind fun _ => holdsToo.bind follows) fun _ => follows .unit

end Agree

-----------------------------------------------------------------------------------------
-- Tokens
-----------------------------------------------------------------------------------------

/-- A parser that reads nothing leaves all tokens. -/
theorem Leaves.of_same
    (same : ∀ before answer after, first before = some (answer, after) → after.rest = before.rest)
    : Leaves first :=
  fun before answer after read => same before answer after read ▸ List.suffix_refl _

/-- Looking at all tokens leaves them. -/
theorem leaves_front : Leaves front :=
  .of_same fun before answer after read => by
    obtain ⟨rfl, rfl⟩ := Prod.mk.inj (Option.some.inj read)
    rfl

/-- So does testing them. -/
theorem leaves_sees (test : Tokens → Bool)
    : Leaves (sees test) :=
  .of_same fun before answer after read => by
    obtain ⟨rfl, rfl⟩ := Prod.mk.inj (Option.some.inj read)
    rfl

/-- So does a requirement. -/
theorem leaves_require (holds : Bool)
    : Leaves (require holds) :=
  .of_same fun before answer after read => by
    rw [require_apply] at read
    split at read
    · obtain ⟨rfl, rfl⟩ := Prod.mk.inj (Option.some.inj read)
      rfl
    · contradiction

/-- So does printing. -/
theorem leaves_print (tokens : Tokens)
    : Leaves (print tokens) :=
  .of_same fun before answer after read => by
    obtain ⟨rfl, rfl⟩ := Prod.mk.inj (Option.some.inj read)
    rfl

/-- A word is taken whatever stands behind it. -/
theorem takes_anyWord : Takes anyWord := by
  intro before answer after read
  unfold anyWord at read
  split at read
  · rename_i text line rest printed
    obtain ⟨rfl, rfl⟩ := Prod.mk.inj (Option.some.inj read)
    exact ⟨[.word text line], [.word text line], List.cons_ne_nil _ _, rfl, rfl, fun _ _ => rfl⟩
  · contradiction

/-- So is a lifetime. -/
theorem takes_lifetime : Takes lifetime := by
  intro before answer after read
  unfold lifetime at read
  split at read
  · rename_i joint text line rest printed
    obtain ⟨rfl, rfl⟩ := Prod.mk.inj (Option.some.inj read)
    exact ⟨[.mark '\x27' joint, .word text line], [.word text line, .mark '\x27' true], List.cons_ne_nil _ _,
      rfl, rfl, fun _ _ => rfl⟩
  · contradiction

/-- So is a literal, with its sign, by the forms of a literal: alone, behind a minus, or as a truth
value.
-/
theorem takes_literal : Takes literal := by
  intro before answer after read
  unfold literal at read
  split at read
  · rename_i text rest printed
    obtain ⟨rfl, rfl⟩ := Prod.mk.inj (Option.some.inj read)
    exact ⟨[.literal text], [.literal text], List.cons_ne_nil _ _, rfl, rfl, fun _ _ => rfl⟩
  · rename_i joint text rest printed
    split at read
    · rename_i number
      obtain ⟨rfl, rfl⟩ := Prod.mk.inj (Option.some.inj read)
      exact ⟨[.mark '-' joint, .literal text], [.literal text, .mark '-' false], List.cons_ne_nil _ _,
        rfl, rfl, fun _ _ => if_pos number⟩
    · contradiction
  · rename_i text line rest printed
    split at read
    · rename_i truth
      obtain ⟨rfl, rfl⟩ := Prod.mk.inj (Option.some.inj read)
      exact ⟨[.word text line], [.word text line], List.cons_ne_nil _ _, rfl, rfl,
        fun _ _ => if_pos truth⟩
    · contradiction
  · contradiction

/-- So is a whole group. -/
theorem takes_anyGroup : Takes anyGroup := by
  intro before answer after read
  unfold anyGroup at read
  split at read
  · rename_i delimiter inner rest printed
    obtain ⟨rfl, rfl⟩ := Prod.mk.inj (Option.some.inj read)
    exact ⟨[.group delimiter inner], [.group delimiter inner], List.cons_ne_nil _ _, rfl, rfl, fun _ _ => rfl⟩
  · contradiction

/-- So is a group whose contents can be read, since they do not depend on what is behind. -/
theorem takes_group (delimiter : Delimiter) (contents : Parser α)
    : Takes (group delimiter contents) := by
  intro before answer after read
  unfold group at read
  split at read
  · rename_i found inner rest printed
    split at read
    · rename_i same
      obtain ⟨⟨result, shown⟩, whole, same'⟩ := Option.map_eq_some_iff.mp read
      obtain ⟨rfl, rfl⟩ := Prod.mk.inj same'
      refine ⟨[.group found inner], [.group delimiter shown], List.cons_ne_nil _ _, rfl, rfl, ?_⟩
      intro rest printed
      rw [List.singleton_append, group_apply, if_pos same, whole]
      rfl
    · contradiction
  · contradiction

/-- What the characters of an operator are read from does not depend on what follows, by induction on
the characters: all marks but the last are joined to the next.
-/
theorem startsMarks_take {chars : List Char} {tokens : Tokens} (starts : startsMarks chars tokens = true)
    : ∃ taken, tokens = taken ++ tokens.drop chars.length
        ∧ taken.length = chars.length
        ∧ ∀ rest, startsMarks chars (taken ++ rest) = true := by
  induction chars generalizing tokens with
  | nil => exact ⟨[], rfl, rfl, fun _ => by simp [startsMarks]⟩
  | cons char chars ih =>
      cases tokens with
      | nil => cases chars <;> simp [startsMarks] at starts
      | cons token tokens =>
          cases chars with
          | nil =>
              cases token with
              | mark found joint =>
                  exact ⟨[.mark found joint], rfl, rfl, fun _ => by simpa [startsMarks] using starts⟩
              | _ => simp [startsMarks] at starts
          | cons next chars =>
              cases token with
              | mark found joint =>
                  cases joint with
                  | false => simp [startsMarks] at starts
                  | true =>
                      simp only [startsMarks, Bool.and_eq_true, decide_eq_true_eq] at starts
                      obtain ⟨taken, same, long, always⟩ := ih starts.2
                      refine ⟨.mark found true :: taken, ?_, ?_, fun rest => ?_⟩
                      · rw [List.cons_append, List.length_cons, List.drop_succ_cons, ← same]
                      · rw [List.length_cons, long]
                        rfl
                      · simp only [List.cons_append, startsMarks, starts.1, decide_true, Bool.true_and]
                        exact always rest
              | _ => simp [startsMarks] at starts

/-- So is a mark of one character or more. -/
theorem takes_mark {operator : String} (some : operator.toList.isEmpty = false)
    : Takes (mark operator) := by
  intro before answer after read
  rw [mark_apply] at read
  split at read
  · rename_i starts
    obtain ⟨rfl, rfl⟩ := Prod.mk.inj (Option.some.inj read)
    obtain ⟨taken, same, long, always⟩ := startsMarks_take starts
    refine ⟨taken, (marksOf operator.toList).reverse, ?_, same, rfl, fun rest printed => ?_⟩
    · rintro rfl
      rw [List.isEmpty_eq_false_iff_exists_mem] at some
      obtain ⟨char, member⟩ := some
      exact absurd (List.length_pos_of_mem member) (by simp [← long])
    · rw [mark_apply, if_pos (always rest), ← long, List.drop_left]
  · contradiction

/-- So is a name. -/
theorem takes_identifier : Takes identifier := by
  intro before answer after read
  rw [identifier_apply] at read
  split at read
  · rename_i named
    obtain ⟨taken, news, filled, same, shown, always⟩ := takes_anyWord before answer after read
    refine ⟨taken, news, filled, same, shown, fun rest printed => ?_⟩
    have first : isName (taken ++ rest) = true := by
      cases taken with
      | nil => contradiction
      | cons token taken =>
          rw [same] at named
          cases token <;> exact named
    rw [identifier_apply, if_pos first]
    exact always rest printed
  · contradiction

/-- So is a keyword. -/
theorem takes_keyword (word : String)
    : Takes (keyword word) := by
  intro before answer after read
  rw [keyword_apply] at read
  split at read
  · rename_i worded
    obtain ⟨⟨found, last⟩, inner, same'⟩ := Option.map_eq_some_iff.mp read
    obtain ⟨rfl, rfl⟩ := Prod.mk.inj same'
    obtain ⟨taken, news, filled, same, shown, always⟩ := takes_anyWord before found last inner
    refine ⟨taken, news, filled, same, shown, fun rest printed => ?_⟩
    have first : isWord word (taken ++ rest) = true := by
      cases taken with
      | nil => contradiction
      | cons token taken =>
          rw [same] at worded
          cases token <;> exact worded
    rw [keyword_apply, if_pos first, always rest printed]
    rfl
  · contradiction

/-- A word is a token. -/
theorem eats_anyWord : Eats anyWord :=
  takes_anyWord.eats

/-- So is a name. -/
theorem eats_identifier : Eats identifier :=
  takes_identifier.eats

/-- So is a keyword. -/
theorem eats_keyword (word : String)
    : Eats (keyword word) :=
  (takes_keyword word).eats

/-- A lifetime is one at least. -/
theorem eats_lifetime : Eats lifetime :=
  takes_lifetime.eats

/-- So is a literal. -/
theorem eats_literal : Eats literal :=
  takes_literal.eats

/-- A group is one. -/
theorem eats_anyGroup : Eats anyGroup :=
  takes_anyGroup.eats

/-- The same where its contents are read. -/
theorem eats_group (delimiter : Delimiter) (contents : Parser α)
    : Eats (group delimiter contents) :=
  (takes_group delimiter contents).eats

/-- A mark is one at least, unless it is empty. -/
theorem eats_mark {operator : String} (some : operator.toList.isEmpty = false)
    : Eats (mark operator) :=
  (takes_mark some).eats

/-- Even an empty mark leaves the last tokens. -/
theorem leaves_mark (operator : String)
    : Leaves (mark operator) := by
  intro before answer after read
  rw [mark_apply] at read
  split at read
  · obtain ⟨rfl, rfl⟩ := Prod.mk.inj (Option.some.inj read)
    exact List.drop_suffix _ _
  · contradiction

/-- What follows a word that may be missing is chosen by whether it is there. So each side of the
choice can be followed by itself.
-/
theorem optionalWord_bind (word : String) (next : Bool → Parser β)
    : optionalWord word >>= next
      = sees (isWord word) >>= fun found =>
          if found then anyWord >>= fun _ => next true else next false := by
  rw [optionalWord, bind_assoc]
  congr 1
  funext found
  cases found <;> simp [Functor.discard, map_const]

/-- The same for a mark. -/
theorem optionalMark_bind (operator : String) (next : Bool → Parser β)
    : optionalMark operator >>= next
      = sees (isMark operator) >>= fun found =>
          if found then mark operator >>= fun _ => next true else next false := by
  rw [optionalMark, bind_assoc]
  congr 1
  funext found
  cases found <;> simp

/-- A choice of two parsers that read a token reads one. -/
theorem Eats.ite {condition : Prop} [Decidable condition] (holds : Eats first) (fails : Eats second)
    : Eats (if condition then first else second) := by
  split
  · exact holds
  · exact fails

/-- An operator stands in front, or else what follows reads a token. -/
theorem Eats.optionalMark {operator : String} (some : operator.toList.isEmpty = false)
    {next : Bool → Parser β} (marked : Leaves (next true)) (unmarked : Eats (next false))
    : Eats (optionalMark operator >>= next) := by
  rw [optionalMark_bind]
  exact .later (leaves_sees _) fun _ => .ite ((eats_mark some).followed fun _ => marked) unmarked

/-- A word that may be missing leaves the last tokens. -/
theorem leaves_optionalWord (word : String)
    : Leaves (optionalWord word) := by
  intro before answer after read
  rw [optionalWord_apply] at read
  split at read
  · obtain ⟨⟨found, last⟩, inner, same⟩ := Option.map_eq_some_iff.mp read
    obtain ⟨rfl, rfl⟩ := Prod.mk.inj same
    exact eats_anyWord.leaves before found last inner
  · obtain ⟨rfl, rfl⟩ := Prod.mk.inj (Option.some.inj read)
    exact List.suffix_refl _

/-- So does a mark that may be. -/
theorem leaves_optionalMark (operator : String)
    : Leaves (optionalMark operator) := by
  intro before answer after read
  rw [optionalMark_apply] at read
  split at read
  · obtain ⟨⟨found, last⟩, inner, same⟩ := Option.map_eq_some_iff.mp read
    obtain ⟨rfl, rfl⟩ := Prod.mk.inj same
    exact leaves_mark operator before found last inner
  · obtain ⟨rfl, rfl⟩ := Prod.mk.inj (Option.some.inj read)
    exact List.suffix_refl _

/-- Reading all tokens leaves none. -/
theorem leaves_everything : Leaves everything := by
  intro before answer after read
  obtain ⟨rfl, rfl⟩ := Prod.mk.inj (Option.some.inj read)
  exact List.nil_suffix

-----------------------------------------------------------------------------------------
-- Parsers of parsers
-----------------------------------------------------------------------------------------

namespace Agree

/-- Behind a word that may be left out, the tokens are lighter if it is there. -/
theorem optionalWord {word : String} {next other : Bool → Parser β}
    (worded : Agree limit (next true) (other true))
    (wordless : Agree (limit + 1) (next false) (other false))
    : Agree (limit + 1) (optionalWord word >>= next) (optionalWord word >>= other) := by
  rw [optionalWord_bind, optionalWord_bind]
  refine .after (leaves_sees _) fun _ => .ite (fun _ => ?_) fun _ => wordless
  exact .eat eats_anyWord fun _ => worded

/-- Behind an operator that may be left out, the tokens are lighter if it is there. -/
theorem optionalMark {operator : String} (some : operator.toList.isEmpty = false)
    {next other : Bool → Parser β} (marked : Agree limit (next true) (other true))
    (unmarked : Agree (limit + 1) (next false) (other false))
    : Agree (limit + 1) (optionalMark operator >>= next) (optionalMark operator >>= other) := by
  rw [optionalMark_bind, optionalMark_bind]
  refine .after (leaves_sees _) fun _ => .ite (fun _ => ?_) fun _ => unmarked
  exact .eat (eats_mark some) fun _ => marked

/-- The contents of a group are lighter than the group. -/
theorem group (delimiter : Delimiter) (contents : Agree limit first second)
    : Agree (limit + 1) (group delimiter first) (group delimiter second) := by
  intro before light
  refine ⟨?_, (eats_group delimiter first).leaves before⟩
  obtain ⟨rest, printed⟩ := before
  cases rest with
  | nil => rfl
  | cons token rest =>
      cases token with
      | group found inner =>
          have lighter : weightOf inner < limit := by
            simp only [weightOf, weight] at light
            omega
          rw [group_apply, group_apply, Parser.allPrinted?, Parser.allPrinted?,
            (contents ⟨inner, []⟩ lighter).1]
      | _ => rfl

/-- Parsers that agree agree when captured, since they print the same. -/
theorem captured (agree : Agree limit first second)
    : Agree limit (captured first) (captured second) := by
  intro before light
  obtain ⟨same, leaves⟩ := agree ⟨before.rest, []⟩ light
  rw [captured_apply, captured_apply, ← same]
  refine ⟨rfl, fun answer after read => ?_⟩
  obtain ⟨⟨found, left⟩, inner, same⟩ := Option.map_eq_some_iff.mp read
  obtain ⟨rfl, rfl⟩ := Prod.mk.inj same
  exact leaves found left inner

/-- They agree when they print nothing. -/
theorem silently (agree : Agree limit first second)
    : Agree limit (silently first) (silently second) := by
  intro before light
  obtain ⟨same, leaves⟩ := agree before light
  rw [Grammar.silently, Grammar.silently, ← same]
  refine ⟨rfl, fun answer after read => ?_⟩
  obtain ⟨⟨found, left⟩, inner, same⟩ := Option.map_eq_some_iff.mp read
  obtain ⟨rfl, rfl⟩ := Prod.mk.inj same
  exact leaves found left inner

/-- They agree when what was written is printed, which is known from what they leave. -/
theorem asWrittenIf (test : α → Bool) (agree : Agree limit first second)
    : Agree limit (asWrittenIf test first) (asWrittenIf test second) := by
  intro before light
  obtain ⟨same, leaves⟩ := agree before light
  rw [Grammar.asWrittenIf, Grammar.asWrittenIf, ← same]
  refine ⟨rfl, fun answer after read => ?_⟩
  obtain ⟨⟨found, left⟩, inner, same⟩ := Option.map_eq_some_iff.mp read
  have kept := leaves found left inner
  dsimp only at same
  split at same <;>
    · obtain ⟨rfl, rfl⟩ := Prod.mk.inj same
      exact kept

/-- The same without a condition. -/
theorem asWritten (agree : Agree limit first second)
    : Agree limit (asWritten first) (asWritten second) :=
  agree.asWrittenIf _

/-- The same where the answer holds the condition. -/
theorem orKept {first second : Parser (α × Bool)} (agree : Agree limit first second)
    : Agree limit (orKept first) (orKept second) :=
  (agree.asWrittenIf Prod.snd).bind fun _ => .pure _

/-- Attempts agree, as both fail or neither does. -/
theorem attempt (agree : Agree limit first second)
    : Agree limit (attempt first) (attempt second) := by
  intro before light
  obtain ⟨same, leaves⟩ := agree before light
  rw [Grammar.attempt, Grammar.attempt, ← same]
  refine ⟨rfl, fun answer after read => ?_⟩
  split at read
  · rename_i found left inner
    obtain ⟨rfl, rfl⟩ := Prod.mk.inj (Option.some.inj read)
    exact leaves found left inner
  · obtain ⟨rfl, rfl⟩ := Prod.mk.inj (Option.some.inj read)
    exact List.suffix_refl _

/-- So do looks behind parsers. -/
theorem behind {first second : Parser Unit} (agree : Agree limit first second)
    : Agree limit (behind first) (behind second) := by
  intro before light
  rw [Grammar.behind, Grammar.behind, ← (agree before light).1]
  refine ⟨rfl, fun answer after read => ?_⟩
  obtain ⟨rfl, rfl⟩ := Prod.mk.inj (Option.some.inj read)
  exact List.suffix_refl _

/-- So do parsers that keep what they cannot read. -/
theorem readOrKept {first second : Parser Unit} (agree : Agree limit first second)
    : Agree limit (readOrKept first) (readOrKept second) := by
  intro before light
  rw [Grammar.readOrKept, Grammar.readOrKept, ← (agree before light).1]
  refine ⟨rfl, fun answer after read => ?_⟩
  split at read
  · obtain ⟨rfl, rfl⟩ := Prod.mk.inj (Option.some.inj read)
    exact List.nil_suffix
  · exact leaves_everything before answer after read

-----------------------------------------------------------------------------------------
-- Lists
-----------------------------------------------------------------------------------------

/-- Items one after the other, by induction on their bound. -/
theorem many (test : Tokens → Bool) (agree : Agree limit first second) (fuel : Nat)
    : Agree limit (many test first fuel) (many test second fuel) := by
  induction fuel with
  | zero => exact .pure []
  | succ fuel ih =>
      refine .after (leaves_sees test) fun _ => .ite (fun _ => ?_) fun _ => .pure []
      exact agree.bind fun _ => ih.bind fun _ => .pure _

/-- Items agree up to where the test stops. -/
theorem manyWhile (test : Tokens → Bool) (agree : Agree limit first second)
    : Agree limit (manyWhile test first) (manyWhile test second) :=
  .after leaves_front fun _ => agree.many test _

/-- They agree up to the end. -/
theorem untilEnd (agree : Agree limit first second)
    : Agree limit (untilEnd first) (untilEnd second) :=
  agree.manyWhile _

/-- Items with separators between them, by induction on their bound. -/
theorem separatedUpTo (ends : Tokens → Bool) (separator : String)
    (agree : Agree limit first second) (fuel : Nat)
    : Agree limit (separatedUpTo ends separator first fuel) (separatedUpTo ends separator second fuel) := by
  induction fuel with
  | zero => exact .pure []
  | succ fuel ih =>
      refine .after (leaves_sees ends) fun _ => .ite (fun _ => .pure []) fun _ => agree.bind fun _ => ?_
      refine .after (leaves_sees ends) fun _ => .ite (fun _ => .pure _) fun _ => ?_
      exact .after (leaves_mark separator) fun _ => ih.bind fun _ => .pure _

/-- They agree with separators between them. -/
theorem separated (ends : Tokens → Bool) (separator : String)
    (agree : Agree limit first second)
    : Agree limit (separated ends separator first) (separated ends separator second) :=
  .after leaves_front fun _ => agree.separatedUpTo ends separator _

/-- They agree in a list. -/
theorem commaList (agree : Agree limit first second)
    : Agree limit (commaList first) (commaList second) :=
  (agree.separated List.isEmpty ",").bind fun _ => .pure _

/-- Items as long as a separator follows, by induction on their bound. -/
theorem joinedUpTo (ends : Tokens → Bool) (separator : String)
    (agree : Agree limit first second) (fuel : Nat)
    : Agree limit (joinedUpTo ends separator first fuel) (joinedUpTo ends separator second fuel) := by
  induction fuel with
  | zero => exact .pure []
  | succ fuel ih =>
      refine .after (leaves_sees ends) fun _ => .ite (fun _ => .pure []) fun _ => agree.bind fun _ => ?_
      refine .after (leaves_optionalMark separator) fun _ => .ite (fun _ => ?_) fun _ => .pure _
      exact ih.bind fun _ => .pure _

/-- They agree as long as separators go on. -/
theorem joined (ends : Tokens → Bool) (separator : String)
    (agree : Agree limit first second)
    : Agree limit (joined ends separator first) (joined ends separator second) :=
  .after leaves_front fun _ => agree.joinedUpTo ends separator _

end Agree

end Wiring.Source.Grammar
