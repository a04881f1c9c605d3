import Wiring.Proofs.Source.LexedWords
import Wiring.Proofs.Source.ParserSteps

/-! Parsers in front of words that are all identifiers. What such a parser leaves is again of that
kind, and so is whatever it answers of it. Both are one invariant of a parser, and it goes through the
combinators that parsers are built with.
-/

namespace Wiring.Source.Grammar

open Token

variable {α β : Type}

/-- Whether a parser that starts in front of identifiers stops in front of identifiers, with an answer
that is good.
-/
def Keeps (good : α → Prop) (parser : Parser α) : Prop :=
  ∀ before answer after,
    AllNamed before.rest
    → parser before = some (answer, after)
    → AllNamed after.rest ∧ good answer

/-- Whether a parser that starts in front of identifiers stops in front of identifiers. -/
def Steady (parser : Parser α) : Prop :=
  Keeps (fun _ => True) parser

variable {good known : α → Prop} {better : β → Prop} {parser : Parser α} {next : α → Parser β}

/-- What is known of an answer may be weakened. -/
theorem Keeps.imp (keeps : Keeps known parser) (weaker : ∀ answer, known answer → good answer)
    : Keeps good parser :=
  fun before answer after named read =>
    ⟨(keeps before answer after named read).1,
      weaker answer (keeps before answer after named read).2⟩

/-- A parser that keeps something is steady, whatever that is. -/
theorem Keeps.steady (keeps : Keeps good parser)
    : Steady parser :=
  keeps.imp fun _ _ => trivial

-----------------------------------------------------------------------------------------
-- Sequences
-----------------------------------------------------------------------------------------

/-- A good answer from no tokens. -/
theorem Keeps.pure {answer : α} (holds : good answer)
    : Keeps good (pure answer : Parser α) := by
  intro before found after named read
  obtain ⟨rfl, rfl⟩ := Prod.mk.inj (Option.some.inj read)
  exact ⟨named, holds⟩

/-- A failure has no answer to be good. -/
theorem Keeps.failure : Keeps good (failure : Parser α) := by
  intro before found after named read
  contradiction

/-- What follows a parser may take for granted that the answer is good. -/
theorem Keeps.bind (keeps : Keeps known parser)
    (follows : ∀ answer, known answer → Keeps better (next answer))
    : Keeps better (parser >>= next) := by
  intro before found after named read
  obtain ⟨answer, middle, first, rest⟩ := exists_of_bind read
  obtain ⟨left, holds⟩ := keeps before answer middle named first
  exact follows answer holds middle found after left rest

/-- A parser whose answer does not matter, and what follows it. -/
theorem Keeps.after (steady : Steady parser) (follows : ∀ answer, Keeps better (next answer))
    : Keeps better (parser >>= next) :=
  steady.bind fun answer _ => follows answer

/-- Either parser may take its own side of the condition for granted. -/
theorem Keeps.ite {condition : Prop} [Decidable condition] {first second : Parser α}
    (here : condition → Keeps good first) (there : ¬ condition → Keeps good second)
    : Keeps good (if condition then first else second) := by
  split
  · rename_i holds
    exact here holds
  · rename_i fails
    exact there fails

/-- A mapped answer is good if the map makes it so. -/
theorem Keeps.map {f : α → β} (keeps : Keeps known parser)
    (follows : ∀ answer, known answer → better (f answer))
    : Keeps better (f <$> parser) := by
  intro before found after named read
  rw [map_apply] at read
  obtain ⟨⟨answer, middle⟩, first, same⟩ := Option.map_eq_some_iff.mp read
  obtain ⟨rfl, rfl⟩ := Prod.mk.inj same
  obtain ⟨left, holds⟩ := keeps before answer middle named first
  exact ⟨left, follows answer holds⟩

/-- An answer alone reads nothing. The rules for steady parsers are tagged, so that whole parsers are
followed through their combinators.
-/
@[grind ←]
theorem steady_pure (answer : α)
    : Steady (pure answer : Parser α) :=
  .pure trivial

/-- A failure leaves nothing. -/
@[grind ←]
theorem steady_failure : Steady (failure : Parser α) :=
  .failure

/-- Parsers one after the other are steady if both are. -/
@[grind ←]
theorem steady_bind (steady : Steady parser) (follows : ∀ answer, Steady (next answer))
    : Steady (parser >>= next) :=
  .after steady follows

/-- A dropped answer makes no difference. -/
@[grind ←]
theorem steady_discard (steady : Steady parser)
    : Steady (discard parser) :=
  .map steady fun _ _ => trivial

-----------------------------------------------------------------------------------------
-- Looking ahead
-----------------------------------------------------------------------------------------

/-- A parser that reads nothing is steady. -/
theorem Steady.ofSame (same : ∀ before answer after, parser before = some (answer, after)
      → after.rest = before.rest)
    : Steady parser :=
  fun before answer after named read => ⟨same before answer after read ▸ named, trivial⟩

/-- Looking at all tokens reads none. -/
@[grind ←]
theorem steady_front : Steady front :=
  .ofSame fun before answer after read => by
    obtain ⟨rfl, rfl⟩ := Prod.mk.inj (Option.some.inj read)
    rfl

/-- Nor does testing them. -/
@[grind ←]
theorem steady_sees (test : Tokens → Bool)
    : Steady (sees test) :=
  .ofSame fun before answer after read => by
    obtain ⟨rfl, rfl⟩ := Prod.mk.inj (Option.some.inj read)
    rfl

/-- A requirement reads nothing, or fails. -/
@[grind ←]
theorem steady_require (holds : Bool)
    : Steady (require holds) := by
  cases holds
  · exact steady_failure
  · exact steady_pure ()

/-- Printing reads nothing. -/
@[grind ←]
theorem steady_print (tokens : Tokens)
    : Steady (print tokens) :=
  .ofSame fun before answer after read => by
    obtain ⟨rfl, rfl⟩ := Prod.mk.inj (Option.some.inj read)
    rfl

/-- Looking behind a parser goes back to where it started. -/
@[grind ←]
theorem steady_behind (parser : Parser Unit)
    : Steady (behind parser) :=
  .ofSame fun before answer after read => by
    obtain ⟨rfl, rfl⟩ := Prod.mk.inj (Option.some.inj read)
    rfl

-----------------------------------------------------------------------------------------
-- Tokens
-----------------------------------------------------------------------------------------

/-- The words that are read are identifiers. -/
theorem keeps_anyWord : Keeps (fun word => Identifier.isToken word.1 = true) anyWord := by
  intro before answer after named read
  unfold anyWord at read
  split at read
  · obtain ⟨rfl, rfl⟩ := Prod.mk.inj (Option.some.inj read)
    exact ⟨named.2, named.1⟩
  · contradiction

/-- A word leaves the tokens behind it. -/
@[grind ←]
theorem steady_anyWord : Steady anyWord :=
  keeps_anyWord.steady

/-- A name is an identifier, as all words in front of the parser are. -/
theorem keeps_identifier : Keeps (fun word => Identifier.isToken word.1 = true) identifier := by
  unfold identifier
  exact .after (steady_sees _) fun _ => .after (steady_require _) fun _ => keeps_anyWord

/-- So it leaves such words. -/
@[grind ←]
theorem steady_identifier : Steady identifier :=
  keeps_identifier.steady

/-- A keyword is one word. -/
@[grind ←]
theorem steady_keyword (word : String)
    : Steady (keyword word) := by
  unfold keyword
  grind

/-- A word that may be missing is one word at most. -/
@[grind ←]
theorem steady_optionalWord (word : String)
    : Steady (optionalWord word) := by
  unfold optionalWord
  grind

/-- Dropping tokens leaves those behind named. -/
theorem allNamed_drop {tokens : List Token} (named : AllNamed tokens) (count : Nat)
    : AllNamed (tokens.drop count) := by
  rw [allNamed_iff] at named ⊢
  exact fun token member => named token (List.mem_of_mem_drop member)

/-- A mark drops its characters. -/
@[grind ←]
theorem steady_mark (operator : String)
    : Steady (mark operator) := by
  intro before answer after named read
  rw [mark_apply] at read
  split at read
  · obtain ⟨rfl, rfl⟩ := Prod.mk.inj (Option.some.inj read)
    exact ⟨allNamed_drop named _, trivial⟩
  · contradiction

/-- A mark that may be missing drops them or nothing. -/
@[grind ←]
theorem steady_optionalMark (operator : String)
    : Steady (optionalMark operator) := by
  unfold optionalMark
  grind

/-- A lifetime is a mark and a word. -/
@[grind ←]
theorem steady_lifetime : Steady lifetime := by
  intro before answer after named read
  unfold lifetime at read
  split at read
  · obtain ⟨rfl, rfl⟩ := Prod.mk.inj (Option.some.inj read)
    exact ⟨named.2.2, trivial⟩
  · contradiction

/-- A literal is one token. -/
@[grind ←]
theorem steady_literal : Steady literal := by
  intro before answer after named read
  unfold literal at read
  split at read
  · obtain ⟨rfl, rfl⟩ := Prod.mk.inj (Option.some.inj read)
    exact ⟨named.2, trivial⟩
  · split at read
    · obtain ⟨rfl, rfl⟩ := Prod.mk.inj (Option.some.inj read)
      exact ⟨named.2.2, trivial⟩
    · contradiction
  · split at read
    · obtain ⟨rfl, rfl⟩ := Prod.mk.inj (Option.some.inj read)
      exact ⟨named.2, trivial⟩
    · contradiction
  · contradiction

/-- The contents of a group are read in front of its own words, by the steps of its definition: the
first token is that group, and its contents are used up.
-/
theorem group_eq_some {delimiter : Delimiter} {before after : Position} {answer : α}
    (read : group delimiter parser before = some (answer, after))
    : ∃ inner left,
        before.rest = Token.group delimiter inner :: after.rest
        ∧ parser ⟨inner, []⟩ = some (answer, left) := by
  unfold group at read
  split at read
  · rename_i inner rest printed
    split at read
    · rename_i same
      obtain ⟨⟨found, shown⟩, contents, same⟩ := Option.map_eq_some_iff.mp read
      obtain ⟨rfl, rfl⟩ := Prod.mk.inj same
      unfold Parser.allPrinted? at contents
      split at contents
      · rename_i ended
        obtain ⟨rfl, -⟩ := Prod.mk.inj (Option.some.inj contents)
        exact ⟨inner, _, by simp_all, ended⟩
      · contradiction
    · contradiction
  · contradiction

/-- What is good of the contents is good of the group, as words in it are named with those around. -/
theorem Keeps.group (keeps : Keeps good parser) (delimiter : Delimiter)
    : Keeps good (group delimiter parser) := by
  intro before answer after named read
  obtain ⟨inner, left, same, contents⟩ := group_eq_some read
  rw [same] at named
  exact ⟨named.2, (keeps ⟨inner, []⟩ answer left named.1 contents).2⟩

/-- What stands behind a group does not depend on how its contents are read. -/
@[grind ←]
theorem steady_group (delimiter : Delimiter) (parser : Parser α)
    : Steady (group delimiter parser) := by
  intro before answer after named read
  obtain ⟨inner, left, same, contents⟩ := group_eq_some read
  rw [same] at named
  exact ⟨named.2, trivial⟩

/-- A whole group is one token. -/
@[grind ←]
theorem steady_anyGroup : Steady anyGroup := by
  intro before answer after named read
  unfold anyGroup at read
  split at read
  · obtain ⟨rfl, rfl⟩ := Prod.mk.inj (Option.some.inj read)
    exact ⟨named.2, trivial⟩
  · contradiction

-----------------------------------------------------------------------------------------
-- Printing otherwise
-----------------------------------------------------------------------------------------

/-- Capturing changes what is printed, not what is read. -/
theorem Keeps.captured (keeps : Keeps good parser)
    : Keeps (fun answer => good answer.1) (captured parser) := by
  intro before answer after named read
  rw [captured_apply] at read
  obtain ⟨⟨found, left⟩, first, same⟩ := Option.map_eq_some_iff.mp read
  obtain ⟨rfl, rfl⟩ := Prod.mk.inj same
  exact keeps ⟨before.rest, []⟩ found left named first

/-- The same without regard to the answer. -/
@[grind ←]
theorem steady_captured (steady : Steady parser)
    : Steady (captured parser) :=
  Keeps.captured steady

/-- Nor does printing nothing. -/
theorem Keeps.silently (keeps : Keeps good parser)
    : Keeps good (silently parser) := by
  intro before answer after named read
  obtain ⟨⟨found, left⟩, first, same⟩ := Option.map_eq_some_iff.mp read
  obtain ⟨rfl, rfl⟩ := Prod.mk.inj same
  exact keeps before found left named first

/-- The same without regard to the answer. -/
@[grind ←]
theorem steady_silently (steady : Steady parser)
    : Steady (silently parser) :=
  Keeps.silently steady

/-- Nor does printing what was written, on a condition. -/
theorem Keeps.asWrittenIf (keeps : Keeps good parser) (test : α → Bool)
    : Keeps good (asWrittenIf test parser) := by
  intro before answer after named read
  obtain ⟨⟨found, left⟩, first, same⟩ := Option.map_eq_some_iff.mp read
  have kept := keeps _ _ _ named first
  dsimp only at same
  split at same <;>
    · obtain ⟨rfl, rfl⟩ := Prod.mk.inj same
      exact kept

/-- The same without regard to the answer. -/
@[grind ←]
theorem steady_asWrittenIf (test : α → Bool) (steady : Steady parser)
    : Steady (asWrittenIf test parser) :=
  Keeps.asWrittenIf steady test

/-- Without a condition. -/
@[grind ←]
theorem steady_asWritten (steady : Steady parser)
    : Steady (asWritten parser) :=
  steady_asWrittenIf _ steady

/-- What is kept as it was written is read all the same. -/
theorem Keeps.orKept {parser : Parser (α × Bool)} (keeps : Keeps (fun answer => good answer.1) parser)
    : Keeps good (orKept parser) :=
  (keeps.asWrittenIf Prod.snd).bind fun _ holds => .pure holds

/-- An attempt reads what its parser does, or nothing. -/
@[grind ←]
theorem steady_attempt (steady : Steady parser)
    : Steady (attempt parser) := by
  intro before answer after named read
  unfold attempt at read
  split at read
  · rename_i first
    obtain ⟨rfl, rfl⟩ := Prod.mk.inj (Option.some.inj read)
    exact ⟨(steady _ _ _ named first).1, trivial⟩
  · obtain ⟨rfl, rfl⟩ := Prod.mk.inj (Option.some.inj read)
    exact ⟨named, trivial⟩

-----------------------------------------------------------------------------------------
-- Lists
-----------------------------------------------------------------------------------------

/-- Items one after the other, by induction on their bound. -/
theorem Keeps.many (keeps : Keeps good parser) (test : Tokens → Bool) (fuel : Nat)
    : Keeps (fun answers => ∀ answer ∈ answers, good answer) (many test parser fuel) := by
  induction fuel with
  | zero => exact .pure (by simp)
  | succ fuel ih =>
      refine .after (steady_sees test) fun _ => .ite (fun _ => ?_) fun _ => .pure (by simp)
      refine keeps.bind fun first here => ih.bind fun others there => .pure ?_
      exact List.forall_mem_cons.mpr ⟨here, there⟩

/-- All items are good, as the number of tokens is only their bound. -/
theorem Keeps.manyWhile (keeps : Keeps good parser) (test : Tokens → Bool)
    : Keeps (fun answers => ∀ answer ∈ answers, good answer) (manyWhile test parser) :=
  .after steady_front fun _ => keeps.many test _

/-- The same without regard to the items. -/
@[grind ←]
theorem steady_manyWhile (test : Tokens → Bool) (steady : Steady parser)
    : Steady (manyWhile test parser) :=
  (Keeps.manyWhile steady test).steady

/-- All items up to the end are good. -/
theorem Keeps.untilEnd (keeps : Keeps good parser)
    : Keeps (fun answers => ∀ answer ∈ answers, good answer) (untilEnd parser) :=
  keeps.manyWhile _

/-- Items with separators between them, by induction on their bound. -/
theorem Keeps.separatedUpTo (keeps : Keeps good parser) (ends : Tokens → Bool) (separator : String)
    (fuel : Nat)
    : Keeps (fun answers => ∀ answer ∈ answers, good answer.1)
        (separatedUpTo ends separator parser fuel) := by
  induction fuel with
  | zero => exact .pure (by simp)
  | succ fuel ih =>
      refine .after (steady_sees ends) fun _ => .ite (fun _ => .pure (by simp)) fun _ => ?_
      refine keeps.bind fun first here => .after (steady_sees ends) fun _ => ?_
      refine .ite (fun _ => .pure (by simpa using here)) fun _ => ?_
      refine .after (steady_mark separator) fun _ => ih.bind fun others there => .pure ?_
      exact List.forall_mem_cons.mpr ⟨here, there⟩

/-- All items between separators are good. -/
theorem Keeps.separated (keeps : Keeps good parser) (ends : Tokens → Bool) (separator : String)
    : Keeps (fun answers => ∀ answer ∈ answers, good answer.1) (separated ends separator parser) :=
  .after steady_front fun _ => keeps.separatedUpTo ends separator _

/-- The same without regard to the items. -/
@[grind ←]
theorem steady_separated (ends : Tokens → Bool) (separator : String) (steady : Steady parser)
    : Steady (separated ends separator parser) :=
  (Keeps.separated steady ends separator).steady

/-- All items of a list are good, whether or not a comma stands behind them. -/
theorem Keeps.commaList (keeps : Keeps good parser)
    : Keeps (fun answers => ∀ answer ∈ answers, good answer) (commaList parser) :=
  (keeps.separated List.isEmpty ",").bind fun answers holds =>
    .pure fun answer member => by
      obtain ⟨item, among, rfl⟩ := List.mem_map.mp member
      exact holds item among

/-- Items as long as a separator follows, by induction on their bound. -/
theorem steady_joinedUpTo (ends : Tokens → Bool) (separator : String) (steady : Steady parser)
    (fuel : Nat)
    : Steady (joinedUpTo ends separator parser fuel) := by
  induction fuel with
  | zero =>
      unfold joinedUpTo
      grind
  | succ fuel ih =>
      unfold joinedUpTo
      grind

/-- Joined items are steady, as the number of tokens is only their bound. -/
@[grind ←]
theorem steady_joined (ends : Tokens → Bool) (separator : String) (steady : Steady parser)
    : Steady (joined ends separator parser) := by
  have bounded := steady_joinedUpTo ends separator steady
  unfold joined
  grind

end Wiring.Source.Grammar
