import Wiring.Proofs.Emission.FactoryItems
import Wiring.Proofs.Emission.SpelledNames

/-! Factories are source files. Where the names of an injectable are identifiers that are not reserved,
the tokens of its factory are read, from the types of the parameters up to the items of the file.
-/

namespace Wiring.Source.Grammar

open Wiring.Emission

-----------------------------------------------------------------------------------------
-- Readings
-----------------------------------------------------------------------------------------

variable {α β : Type}

/-- Whether the parser answers so on the tokens and leaves the others, whatever was printed before. -/
def Reads (parser : Parser α) (answer : α) (before after : Tokens) : Prop :=
  ∀ printed, ∃ shown, parser ⟨before, printed⟩ = some (answer, ⟨after, shown⟩)

/-- Whether the parser reads the tokens down to the others, with whatever answer. -/
def Runs (parser : Parser α) (before after : Tokens) : Prop :=
  ∃ answer, Reads parser answer before after

namespace Reads

variable {parser : Parser α} {next : α → Parser β} {answer : α} {result : β}
  {before middle after : Tokens}

/-- A parser reads what it is equal to reading, whatever has been printed. -/
theorem of_eq (shown : Tokens → Tokens)
    (read : ∀ printed, parser ⟨before, printed⟩ = some (answer, ⟨after, shown printed⟩))
    : Reads parser answer before after :=
  fun printed => ⟨shown printed, read printed⟩

/-- Parsers read one after the other. -/
theorem bind (first : Reads parser answer before middle)
    (second : Reads (next answer) result middle after)
    : Reads (parser >>= next) result before after := by
  intro printed
  obtain ⟨shown, read⟩ := first printed
  rw [bind_of_some read]
  exact second shown

/-- What follows a known answer. -/
theorem andThen (first : Reads parser answer before middle)
    (second : Runs (next answer) middle after)
    : Runs (parser >>= next) before after := by
  obtain ⟨result, second⟩ := second
  exact ⟨result, first.bind second⟩

/-- An answer is read from no tokens. -/
theorem pure (answer : α) (tokens : Tokens)
    : Reads (pure answer : Parser α) answer tokens tokens :=
  .of_eq id fun _ => rfl

/-- An answer may be dropped. -/
theorem discard (first : Reads parser answer before after)
    : Reads (discard parser : Parser PUnit) .unit before after := by
  intro printed
  obtain ⟨shown, read⟩ := first printed
  exact ⟨shown, discard_of_some read⟩

/-- Looking at the tokens reads none of them. -/
theorem front (tokens : Tokens)
    : Reads front tokens tokens tokens :=
  .of_eq id fun _ => rfl

/-- Nor does testing them. -/
theorem sees (test : Tokens → Bool) (tokens : Tokens)
    : Reads (sees test) (test tokens) tokens tokens :=
  .of_eq id fun _ => rfl

/-- A requirement that holds reads nothing. -/
theorem require {holds : Bool} (true : holds = true) (tokens : Tokens)
    : Reads (require holds) () tokens tokens := by
  subst true
  exact .pure () tokens

/-- Under a condition that holds, the first parser reads. -/
theorem ite_true {condition : Prop} [Decidable condition] {other : Parser α} (holds : condition)
    (first : Reads parser answer before after)
    : Reads (if condition then parser else other) answer before after := by
  rwa [if_pos holds]

/-- Under one that does not, the second one does. -/
theorem ite_false {condition : Prop} [Decidable condition] {other : Parser α} (fails : ¬ condition)
    (second : Reads parser answer before after)
    : Reads (if condition then other else parser) answer before after := by
  rwa [if_neg fails]

/-- A mark that is not there is not read. -/
theorem optionalMark_false {operator : String} {tokens : Tokens}
    (apart : isMark operator tokens = false)
    : Reads (optionalMark operator) false tokens tokens :=
  .of_eq id fun printed => by
    rw [optionalMark_apply, apart]
    rfl

/-- Nor is a word. -/
theorem optionalWord_false {word : String} {tokens : Tokens}
    (apart : isWord word tokens = false)
    : Reads (optionalWord word) false tokens tokens :=
  .of_eq id fun printed => optionalWord_none apart printed

/-- An operator that comes first is read over its characters. -/
theorem mark {operator : String} (found : isMark operator before = Bool.true)
    (left : before.drop operator.toList.length = after)
    : Reads (mark operator) () before after :=
  .of_eq _ fun _ => by
    rw [mark_apply, if_pos (by exact found), left]

/-- A mark that is there is read, since the test for it has succeeded. -/
theorem optionalMark_true {operator : String} (found : isMark operator before = Bool.true)
    (left : before.drop operator.toList.length = after)
    : Reads (optionalMark operator) Bool.true before after :=
  (Reads.sees _ _).bind (.ite_true found ((mark found left).bind (.pure _ _)))

/-- Printing reads nothing. -/
theorem print (shown tokens : Tokens)
    : Reads (print shown) () tokens tokens :=
  .of_eq (shown.reverse ++ ·) fun _ => rfl

/-- What is captured is read all the same. -/
theorem captured (first : Reads parser answer before after)
    : ∃ shown, Reads (captured parser) (answer, shown) before after := by
  obtain ⟨shown, read⟩ := first []
  refine ⟨shown.reverse, .of_eq id fun printed => ?_⟩
  rw [captured_apply, read]
  rfl

/-- So is what is not printed. -/
theorem silently (first : Reads parser answer before after)
    : Reads (silently parser) answer before after := by
  intro printed
  obtain ⟨shown, read⟩ := first printed
  refine ⟨printed, ?_⟩
  unfold Grammar.silently
  rw [read]
  rfl

/-- The contents of a group are read to their end, and the group is behind. -/
theorem group {inner : Tokens} (delimiter : Delimiter) (contents : Reads parser answer inner [])
    (rest : Tokens)
    : Reads (group delimiter parser) answer (.group delimiter inner :: rest) rest := by
  intro printed
  obtain ⟨shown, read⟩ := contents []
  refine ⟨.group delimiter shown.reverse :: printed, ?_⟩
  rw [group_apply, if_pos rfl, Parser.allPrinted?, read]
  rfl

/-- Items stop where the test does. -/
theorem many_nil {test : Tokens → Bool} {tokens : Tokens} (stops : test tokens = false)
    (parser : Parser α) (fuel : Nat)
    : Reads (many test parser fuel) [] tokens tokens :=
  .of_eq id fun _ => many_of_stops parser stops fuel

/-- One more item is read where the test goes on and the bound allows for it. -/
theorem many_cons {test : Tokens → Bool} {fuel : Nat} {answers : List α}
    (continues : test before = Bool.true) (first : Reads parser answer before middle)
    (others : Reads (many test parser fuel) answers middle after)
    : Reads (many test parser (fuel + 1)) (answer :: answers) before after := by
  rw [many]
  refine (Reads.sees test before).bind (.ite_true continues (first.bind ?_))
  exact others.bind (.pure _ _)

/-- One item, and then the end of the items. -/
theorem separated_single {ends : Tokens → Bool} {separator : String}
    (item : Reads parser answer before after) (some : before ≠ []) (opens : ends before = false)
    (closes : ends after = Bool.true)
    : Reads (separated ends separator parser) [(answer, false)] before after := by
  obtain ⟨first, rest, rfl⟩ := List.exists_cons_of_ne_nil some
  refine (Reads.front _).bind ?_
  rw [List.length_cons, separatedUpTo]
  refine (Reads.sees ends _).bind (.ite_false (by simp [opens]) (item.bind ?_))
  exact (Reads.sees ends _).bind (.ite_true closes (.pure _ _))

/-- An item, a separator, and the items behind it. -/
theorem separatedUpTo_cons {ends : Tokens → Bool} {separator : String} {fuel : Nat}
    {answers : List (α × Bool)} {last : Tokens} (item : Reads parser answer before middle)
    (opens : ends before = false) (continues : ends middle = false)
    (comma : Reads (Grammar.mark separator) () middle after)
    (others : Reads (separatedUpTo ends separator parser fuel) answers after last)
    : Reads (separatedUpTo ends separator parser (fuel + 1)) ((answer, Bool.true) :: answers) before
        last := by
  rw [separatedUpTo]
  refine (Reads.sees ends _).bind (.ite_false (by simp [opens]) (item.bind ?_))
  refine (Reads.sees ends _).bind (.ite_false (by simp [continues]) (comma.bind ?_))
  exact others.bind (.pure _ _)

end Reads

namespace Runs

variable {parser : Parser α} {next : α → Parser β} {before middle after : Tokens}

/-- What follows an answer, whatever it is. -/
theorem bind (first : Runs parser before middle)
    (second : ∀ answer, Runs (next answer) middle after)
    : Runs (parser >>= next) before after := by
  obtain ⟨answer, first⟩ := first
  exact first.andThen (second answer)

/-- No tokens are passed for an answer. -/
theorem pure (answer : α) (tokens : Tokens)
    : Runs (pure answer : Parser α) tokens tokens :=
  ⟨answer, .pure answer tokens⟩

/-- Under a condition that does not hold, the second parser runs. -/
theorem ite_false {condition : Prop} [Decidable condition] {other : Parser α} (fails : ¬ condition)
    (second : Runs parser before after)
    : Runs (if condition then other else parser) before after := by
  rwa [if_neg fails]

/-- Under one that holds, the first one does. -/
theorem ite_true {condition : Prop} [Decidable condition] {other : Parser α} (holds : condition)
    (first : Runs parser before after)
    : Runs (if condition then parser else other) before after := by
  rwa [if_pos holds]

/-- What is captured is run over all the same. -/
theorem captured (runs : Runs parser before after)
    : Runs (captured parser) before after := by
  obtain ⟨answer, read⟩ := runs
  obtain ⟨shown, read⟩ := read.captured
  exact ⟨_, read⟩

/-- So is what is not printed. -/
theorem silently (runs : Runs parser before after)
    : Runs (silently parser) before after := by
  obtain ⟨answer, read⟩ := runs
  exact ⟨answer, read.silently⟩

/-- A parser that runs over the contents of a group runs over the group. -/
theorem group {inner : Tokens} (delimiter : Delimiter) (runs : Runs parser inner []) (rest : Tokens)
    : Runs (group delimiter parser) (.group delimiter inner :: rest) rest := by
  obtain ⟨answer, read⟩ := runs
  exact ⟨answer, read.group delimiter rest⟩

/-- One more item is run over where the test goes on. -/
theorem many_cons {test : Tokens → Bool} {fuel : Nat} (continues : test before = true)
    (first : Runs parser before middle) (others : Runs (many test parser fuel) middle after)
    : Runs (many test parser (fuel + 1)) before after := by
  obtain ⟨answer, first⟩ := first
  obtain ⟨answers, others⟩ := others
  exact ⟨_, Reads.many_cons continues first others⟩

/-- A single item has no separator behind it. -/
theorem separated_single {ends : Tokens → Bool} {separator : String} (runs : Runs parser before after)
    (some : before ≠ []) (opens : ends before = false) (closes : ends after = true)
    : Runs (separated ends separator parser) before after := by
  obtain ⟨answer, read⟩ := runs
  exact ⟨_, read.separated_single some opens closes⟩

end Runs

-----------------------------------------------------------------------------------------
-- Names of arguments
-----------------------------------------------------------------------------------------

/-- Whether the word is a letter with digits behind it. -/
def isNumbered (word : String) : Bool :=
  match word.toList with
  | 'p' :: rest => rest.all Char.isDigit
  | _ => false

/-- The names of arguments are the letter and a number. -/
theorem isNumbered_of_mem_argumentNames {count : Nat}
    : ∀ name ∈ argumentNames count, isNumbered name = true := by
  intro name member
  obtain ⟨index, _, rfl⟩ := List.mem_map.mp member
  have spelled : ("p" ++ toString index).toList = 'p' :: Nat.toDigits 10 index := by
    simp [Nat.toString_eq_repr, Nat.toList_repr]
  rw [isNumbered, spelled]
  simp only [List.all_eq_true]
  exact fun char member => isDigit_of_mem_toDigits member

/-- No word of the language is the name of an argument. -/
theorem isReserved_of_isNumbered {name : String} (numbered : isNumbered name = true)
    : Identifier.isReserved name = false := by
  have apart : ∀ word ∈ Identifier.reserved, isNumbered word = false := by decide
  rw [Identifier.isReserved, ← Bool.not_eq_true, List.contains_iff_mem]
  intro member
  exact absurd numbered (by simp [apart name member])

/-- A name that is not reserved is none of the reserved words. -/
theorem ne_of_isReserved {name word : String} (plain : Identifier.isReserved name = false)
    (reserved : Identifier.isReserved word = true)
    : name ≠ word := by
  rintro rfl
  rw [plain] at reserved
  contradiction

variable {nested inner innermost : Nested}

/-- What may stand behind one of several arguments: nothing, or a comma. -/
def EndsArgument (rest : Tokens) : Prop :=
  rest = [] ∨ ∃ more, rest = .mark ',' false :: more

/-- What ends an argument ends its type. -/
theorem EndsArgument.endsType {rest : Tokens} (ends : EndsArgument rest) : EndsType rest := by
  rcases ends with rfl | ⟨more, rfl⟩
  · exact ⟨rfl, rfl, rfl⟩
  · exact ⟨rfl, rfl, rfl⟩

-----------------------------------------------------------------------------------------
-- Types
-----------------------------------------------------------------------------------------

/-- A printed path of proper segments is read as a type. -/
theorem runs_pathTokens (typed : nested.type true = typeExpr inner true) {text : String}
    (admitted : (wordsOfPath text).all isSegmentWord = true) {rest : Tokens} (ends : EndsType rest)
    : Runs (nested.type true) (pathTokens text ++ rest) rest := by
  have read := typeExpr_pathTokens inner text ends
  simp only [← typed, if_pos admitted] at read
  exact ⟨_, fun printed => ⟨_, read printed⟩⟩

/-- A printed path starts with nothing that starts another type argument. -/
theorem starts_pathTokens (text : String) (rest : Tokens)
    : isLifetime (pathTokens text ++ rest) = false
      ∧ isLiteral (pathTokens text ++ rest) = false
      ∧ isGroup .brace (pathTokens text ++ rest) = false
      ∧ isMark ">" (pathTokens text ++ rest) = false := by
  rcases pathTokens_cases text with ⟨more, same⟩ | ⟨more, same⟩ <;> rw [same] <;>
    exact ⟨rfl, rfl, rfl, rfl⟩

/-- A path as a type argument, before the end of the arguments. -/
theorem runs_genericArgument (typed : nested.type true = typeExpr inner true) {text : String}
    (admitted : (wordsOfPath text).all isSegmentWord = true) (rest : Tokens)
    : Runs (genericArgument nested) (pathTokens text ++ .mark '>' false :: rest)
        (.mark '>' false :: rest) := by
  obtain ⟨noLifetime, noLiteral, noBlock, _⟩ := starts_pathTokens text (.mark '>' false :: rest)
  have closes : EndsType (.mark '>' false :: rest) := ⟨rfl, rfl, rfl⟩
  refine (Reads.front _).andThen (.ite_false (by simp [noLifetime]) ?_)
  refine .ite_false (by simp [noLiteral, noBlock]) ?_
  refine (runs_pathTokens typed admitted closes).bind fun form => ?_
  split
  · exact .pure _ _
  · refine (Reads.optionalMark_false rfl).andThen (.ite_false Bool.false_ne_true ?_)
    exact (Reads.optionalMark_false rfl).andThen (.ite_false Bool.false_ne_true (.pure _ _))

/-- A path as the only argument of a segment. -/
theorem runs_genericArguments (typed : nested.type true = typeExpr inner true) {text : String}
    (admitted : (wordsOfPath text).all isSegmentWord = true) (rest : Tokens)
    : Runs (genericArguments nested)
        (.mark '<' false :: (pathTokens text ++ .mark '>' false :: rest)) rest := by
  obtain ⟨_, _, _, opens⟩ := starts_pathTokens text (.mark '>' false :: rest)
  have some : pathTokens text ++ .mark '>' false :: rest ≠ [] := by simp
  refine (Reads.optionalMark_false rfl).discard.andThen ?_
  refine (Reads.mark rfl rfl).andThen ?_
  have argument := (runs_genericArgument typed admitted rest).captured
  refine (argument.separated_single some opens rfl).silently.bind fun found => ?_
  refine (Reads.print _ _).andThen ?_
  exact (Reads.mark rfl rfl).andThen (.pure _ _)

/-- The type of a shared instance of the type at a path. -/
def sharedTokens (text : String) : Tokens :=
  pathSeparator ++ wordTokens ["std", "sync", "Arc"] ++ [.mark '<' false] ++ pathTokens text
    ++ [.mark '>' false]

/-- A shared type is written out, token by token. -/
theorem sharedTokens_append (text : String) (rest : Tokens)
    : sharedTokens text ++ rest
      = .mark ':' true :: .mark ':' false :: .word "std" 2 :: .mark ':' true :: .mark ':' false
          :: .word "sync" 2 :: .mark ':' true :: .mark ':' false :: .word "Arc" 2
          :: .mark '<' false :: (pathTokens text ++ .mark '>' false :: rest) := by
  simp [sharedTokens, wordTokens_cons, furtherTokens, pathSeparator]

/-- A shared type is a path whose last segment has the type as its argument. The segments are read one
by one; `Arc` is the one with arguments.
-/
theorem runs_path_sharedTokens (typed : nested.type true = typeExpr inner true) {text : String}
    (admitted : (wordsOfPath text).all isSegmentWord = true) {rest : Tokens} (ends : EndsType rest)
    : Runs (path nested .type) (sharedTokens text ++ rest) rest := by
  have word (name : String) (more : Tokens) (proper : isSegmentWord name = true)
      (apart : startsArguments .type more = false)
      : Reads (segment nested .type) (⟨name, .none⟩, true) (.word name 2 :: more) more := by
    intro printed
    refine ⟨.word name 2 :: printed, ?_⟩
    rw [segment_word nested name more printed apart, if_pos proper]
  have last
      : Runs (segment nested .type)
          (.word "Arc" 2 :: .mark '<' false :: (pathTokens text ++ .mark '>' false :: rest)) rest := by
    refine (Reads.sees _ _).andThen (.ite_false Bool.false_ne_true ?_)
    have named (more : Tokens) : Reads identifier ("Arc", 2) (.word "Arc" 2 :: more) more :=
      .of_eq _ fun _ => rfl
    refine (Reads.sees _ _).andThen (.ite_false Bool.false_ne_true ((named _).andThen ?_))
    refine (Reads.sees _ _).andThen (.ite_true rfl ?_)
    refine (runs_genericArguments typed admitted rest).captured.bind fun (arguments, shown) => ?_
    exact (Reads.sees _ _).andThen ((Reads.print _ _).andThen (.pure _ _))
  have separator (more : Tokens)
      : Reads (mark "::") () (.mark ':' true :: .mark ':' false :: more) more :=
    .mark rfl rfl
  have stops : isMark "::" rest = false := by
    have path := ends.path
    simp only [endsPath, Bool.and_eq_true, Bool.not_eq_true'] at path
    exact path.1
  rw [sharedTokens_append, path_eq]
  refine (Reads.optionalMark_true rfl rfl).andThen ?_
  refine (word "std" _ rfl rfl).andThen ?_
  refine Runs.bind ?_ fun others => .pure _ _
  refine (Reads.front _).andThen ?_
  rw [List.length_cons]
  refine .many_cons rfl ((separator _).andThen ⟨_, word "sync" _ rfl rfl⟩) ?_
  rw [List.length_cons]
  refine .many_cons rfl ((separator _).andThen last) ?_
  exact ⟨_, .many_nil (by rw [stops, Bool.false_and]) _ _⟩

/-- A shared instance as a type. -/
theorem runs_sharedTokens (typed : nested.type true = typeExpr inner true)
    (innerTyped : inner.type true = typeExpr innermost true) {text : String}
    (admitted : (wordsOfPath text).all isSegmentWord = true) {rest : Tokens} (ends : EndsType rest)
    : Runs (nested.type true) (sharedTokens text ++ rest) rest := by
  obtain ⟨answer, read⟩ := runs_path_sharedTokens innerTyped admitted ends
  obtain ⟨shown, read⟩ := read []
  have noCall : isCallMark rest = false := by
    simp only [isCallMark, ends.noCall, Bool.false_and]
  refine ⟨.path answer.path, fun printed => ⟨shown ++ printed, ?_⟩⟩
  rw [sharedTokens_append] at read ⊢
  rw [typed, typeExpr_of_startsPath inner rfl rfl rfl rfl]
  exact pathType_of_path inner rfl read noCall ends.noSum printed

-----------------------------------------------------------------------------------------
-- Arguments
-----------------------------------------------------------------------------------------

/-- Words that are reserved are no names. -/
theorem contains_eq_false {words : List String} {name : String}
    (plain : Identifier.isReserved name = false)
    (reserved : ∀ word ∈ words, Identifier.isReserved word = true)
    : words.contains name = false := by
  rw [← Bool.not_eq_true, List.contains_iff_mem]
  exact fun member => ne_of_isReserved plain (reserved name member) rfl

/-- A name that is not reserved is none of the words. -/
theorem isOneOf_eq_false {words : List String} {name : String}
    (plain : Identifier.isReserved name = false)
    (reserved : ∀ word ∈ words, Identifier.isReserved word = true) (line : Nat) (rest : Tokens)
    : isOneOf words (.word name line :: rest) = false :=
  contains_eq_false plain reserved

/-- Nor is it the one word. -/
theorem isWord_eq_false {name word : String} (plain : Identifier.isReserved name = false)
    (reserved : Identifier.isReserved word = true) (line : Nat) (rest : Tokens)
    : isWord word (.word name line :: rest) = false :=
  decide_eq_false (ne_of_isReserved plain reserved)

/-- A name before a colon is read as a pattern that binds it. Every other form of a pattern starts with
a reserved word or with something that is no word.
-/
theorem reads_singlePattern {name : String} (plain : Identifier.isReserved name = false)
    (rest : Tokens)
    : Reads (singlePattern nested) (.name name) (.word name 2 :: .mark ':' false :: rest)
        (.mark ':' false :: rest) := by
  have noWord (word : String) (reserved : Identifier.isReserved word = true)
      : isWord word (.word name 2 :: .mark ':' false :: rest) = false :=
    isWord_eq_false plain reserved ..
  have noneOf (words : List String) (reserved : ∀ word ∈ words, Identifier.isReserved word = true)
      : isOneOf words (.word name 2 :: .mark ':' false :: rest) = false :=
    isOneOf_eq_false plain reserved ..
  have named : isName (.word name 2 :: .mark ':' false :: rest) = true := by
    rw [isName, plain, Bool.not_false]
  have noPath : startsPathPattern (.word name 2 :: .mark ':' false :: rest) = false := by
    rw [startsPathPattern, named, noWord "self" rfl, noneOf ["Self", "super", "crate"] (by decide)]
    rfl
  have noLiteral : isLiteral (.word name 2 :: .mark ':' false :: rest) = false :=
    noneOf ["true", "false"] (by decide)
  have noMinus : isMark "-" (.word name 2 :: .mark ':' false :: rest) = false := rfl
  have read : Reads identifier (name, 2) (.word name 2 :: .mark ':' false :: rest)
      (.mark ':' false :: rest) :=
    .of_eq (.word name 2 :: ·) fun printed => by rw [identifier_apply, if_pos named]; rfl
  refine (Reads.front _).bind (.ite_false (by simp [noPath]) ?_)
  refine .ite_false (by simp [noWord "_" rfl]) (.ite_false (by simp [noWord "box" rfl]) ?_)
  refine .ite_false (by simp [noMinus, noLiteral, noWord "const" rfl]) ?_
  refine .ite_true (by simp [named]) ?_
  refine (Reads.optionalWord_false (noWord "ref" rfl)).discard.bind ?_
  refine (Reads.optionalWord_false (noWord "mut" rfl)).discard.bind ?_
  refine (Reads.sees _ _).bind (.ite_false (by simp [noWord "self" rfl]) (read.bind ?_))
  exact (Reads.optionalMark_false rfl).bind (.ite_false Bool.false_ne_true (.pure _ _))

/-- An attempt that fails reads nothing. -/
theorem reads_attempt_none {parser : Parser α} {tokens : Tokens}
    (fails : ∀ printed, parser ⟨tokens, printed⟩ = none)
    : Reads (attempt parser) none tokens tokens :=
  .of_eq id fun printed => by
    rw [attempt, fails]
    rfl

/-- What `create` is handed is read as a parameter. It is no receiver, since its name is not `self`,
and has a pattern, a colon and a type.
-/
theorem reads_argument (typed : nested.type true = typeExpr inner true)
    (innerTyped : inner.type true = typeExpr innermost true)
    (patterned : nested.pattern = singlePattern inner) {name : String} {type : TypeName}
    (plain : Identifier.isReserved name = false)
    (admitted : (wordsOfPath type.qualified).all isSegmentWord = true) {rest : Tokens}
    (ends : EndsArgument rest)
    : ∃ parameter,
        Reads (argument nested) (.parameter parameter) (parameterTokens name type ++ rest) rest := by
  have spelled
      : parameterTokens name type ++ rest
        = .word name 2 :: .mark ':' false :: (sharedTokens type.qualified ++ rest) := by
    simp [parameterTokens, sharedTokens]
  obtain ⟨form, read⟩ := runs_sharedTokens typed innerTyped admitted ends.endsType
  obtain ⟨shown, read⟩ := read.captured
  have written
      : Reads (writtenType nested) ⟨form.path?, Token.textOf shown⟩
          (sharedTokens type.qualified ++ rest) rest :=
    read.bind ((Reads.print _ _).bind (.pure _ _))
  have noReceiver (printed : Tokens)
      : receiver nested
          ⟨.word name 2 :: .mark ':' false :: (sharedTokens type.qualified ++ rest), printed⟩
        = none := by
    have noSelf := isWord_eq_false plain (rfl : Identifier.isReserved "self" = true) 2
      (.mark ':' false :: (sharedTokens type.qualified ++ rest))
    have noMut := isWord_eq_false plain (rfl : Identifier.isReserved "mut" = true) 2
      (.mark ':' false :: (sharedTokens type.qualified ++ rest))
    rw [receiver, bind_of_some (rfl : optionalMark "&" _ = some (false, _)),
      if_neg Bool.false_ne_true, bind_of_some (discard_of_some (optionalWord_none noMut printed)),
      bind_apply, keyword_apply, noSelf]
    rfl
  rw [spelled]
  refine ⟨⟨name, ⟨form.path?, Token.textOf shown⟩⟩, ?_⟩
  refine (Reads.of_eq id fun _ => outerAttributes_none rfl _).discard.bind ?_
  refine (Reads.optionalMark_false rfl).bind (.ite_false Bool.false_ne_true ?_)
  refine (reads_attempt_none noReceiver).bind ?_
  have noGeneric : isMark "<" (.mark ':' false :: (sharedTokens type.qualified ++ rest)) = false := rfl
  have colon
      : Reads (mark ":") () (.mark ':' false :: (sharedTokens type.qualified ++ rest))
          (sharedTokens type.qualified ++ rest) :=
    .mark rfl rfl
  have noDots : isMark "..." (sharedTokens type.qualified ++ rest) = false := by
    rw [sharedTokens_append]
    rfl
  refine (Reads.front _).bind (.ite_false (by simp [noGeneric]) ?_)
  rw [patterned]
  refine (reads_singlePattern plain _).bind (colon.bind ?_)
  refine (Reads.optionalMark_false noDots).bind (.ite_false Bool.false_ne_true ?_)
  exact written.bind (.pure _ _)

/-- Parts with commas between them are read as a list, if each part is read as an item up to what ends
it. By induction on the parts, with fuel for each of them.
-/
theorem reads_separatedUpTo {parser : Parser α} {good : α → Prop} {parts : List Tokens}
    (some : ∀ part ∈ parts, part ≠ [])
    (each
      : ∀ part ∈ parts, ∀ rest, EndsArgument rest →
          ∃ answer, good answer ∧ Reads parser answer (part ++ rest) rest)
    {fuel : Nat} (enough : parts.length ≤ fuel)
    : ∃ answers,
        (∀ answer ∈ answers, good answer.1)
        ∧ Reads (separatedUpTo List.isEmpty "," parser fuel) answers
            (separatedBy [.mark ',' false] parts) [] := by
  induction parts generalizing fuel with
  | nil =>
      refine ⟨[], by simp, ?_⟩
      cases fuel with
      | zero => exact .pure [] []
      | succ fuel => exact (Reads.sees _ _).bind (.ite_true rfl (.pure [] []))
  | cons part parts ih =>
      obtain ⟨fuel, rfl⟩ : ∃ less, fuel = less + 1 := ⟨fuel - 1, by simp at enough; omega⟩
      obtain ⟨here, there⟩ := List.forall_mem_cons.mp each
      obtain ⟨token, tokens, rfl⟩ :=
        List.exists_cons_of_ne_nil (some part List.mem_cons_self)
      cases parts with
      | nil =>
          obtain ⟨answer, holds, item⟩ := here [] (.inl rfl)
          rw [List.append_nil] at item
          refine ⟨[(answer, false)], by simpa using holds, ?_⟩
          rw [separatedUpTo]
          refine (Reads.sees _ _).bind (.ite_false Bool.false_ne_true (item.bind ?_))
          exact (Reads.sees _ _).bind (.ite_true rfl (.pure _ _))
      | cons second parts =>
          obtain ⟨answers, hold, others⟩ :=
            ih (fun part member => some part (List.mem_cons_of_mem _ member)) there
              (Nat.le_of_succ_le_succ enough)
          obtain ⟨answer, holds, item⟩ := here
            (.mark ',' false :: separatedBy [.mark ',' false] (second :: parts)) (.inr ⟨_, rfl⟩)
          have comma
              : Reads (mark ",") ()
                  (.mark ',' false :: separatedBy [.mark ',' false] (second :: parts))
                  (separatedBy [.mark ',' false] (second :: parts)) :=
            .mark rfl rfl
          refine ⟨(answer, true) :: answers, List.forall_mem_cons.mpr ⟨holds, hold⟩, ?_⟩
          rw [separatedBy, List.append_assoc]
          exact item.separatedUpTo_cons rfl rfl comma others

/-- There are no more parts than tokens, since no part is empty. So the length of the tokens bounds the
items.
-/
theorem length_le_separatedBy {parts : List Tokens} (some : ∀ part ∈ parts, part ≠ [])
    (separator : Tokens)
    : parts.length ≤ (separatedBy separator parts).length := by
  induction parts with
  | nil => exact Nat.zero_le _
  | cons part parts ih =>
      obtain ⟨here, there⟩ := List.forall_mem_cons.mp some
      have positive := List.length_pos_iff.mpr here
      cases parts with
      | nil => exact positive
      | cons second parts =>
          have others := ih there
          rw [separatedBy, List.length_append, List.length_append]
          simp only [List.length_cons] at others ⊢
          omega

/-- Arguments that are all parameters have no receiver, by induction on them. -/
theorem readArguments_parameters (parameters : List FunctionParameter)
    : readArguments (parameters.map Argument.parameter) = some (false, parameters) := by
  have listed
      : readArguments.parametersOf (parameters.map Argument.parameter) = some parameters := by
    induction parameters with
    | nil => rfl
    | cons parameter parameters ih => simp [readArguments.parametersOf, ih]
  cases parameters with
  | nil => rfl
  | cons parameter parameters => simpa [readArguments] using listed

/-- What `create` is handed is read as parameters. The commas separate them, and each of them is read
up to its comma.
-/
theorem reads_parametersTokens (typed : nested.type true = typeExpr inner true)
    (innerTyped : inner.type true = typeExpr innermost true)
    (patterned : nested.pattern = singlePattern inner) {types : List TypeName}
    (admitted : ∀ type ∈ types, (wordsOfPath type.qualified).all isSegmentWord = true)
    : ∃ parameters : List FunctionParameter,
        Reads (commaList (argument nested)) (parameters.map Argument.parameter)
          (parametersTokens types) [] := by
  let parts :=
    ((argumentNames types.length).zip types).map fun named => parameterTokens named.1 named.2
  have some : ∀ part ∈ parts, part ≠ [] := by
    intro part member
    obtain ⟨named, _, rfl⟩ := List.mem_map.mp member
    simp [parameterTokens]
  have each
      : ∀ part ∈ parts, ∀ rest, EndsArgument rest →
          ∃ answer, (∃ parameter, answer = Argument.parameter parameter)
            ∧ Reads (argument nested) answer (part ++ rest) rest := by
    intro part member rest ends
    obtain ⟨⟨name, type⟩, among, rfl⟩ := List.mem_map.mp member
    obtain ⟨inNames, inTypes⟩ := List.of_mem_zip among
    have plain := isReserved_of_isNumbered (isNumbered_of_mem_argumentNames name inNames)
    obtain ⟨parameter, read⟩ :=
      reads_argument typed innerTyped patterned plain (admitted type inTypes) ends
    exact ⟨_, ⟨parameter, rfl⟩, read⟩
  obtain ⟨answers, found, read⟩ := reads_separatedUpTo some each (length_le_separatedBy some _)
  have listed : ∃ parameters : List FunctionParameter,
      answers.map Prod.fst = parameters.map Argument.parameter := by
    clear read
    induction answers with
    | nil => exact ⟨[], rfl⟩
    | cons answer answers ih =>
        obtain ⟨⟨parameter, here⟩, there⟩ := List.forall_mem_cons.mp found
        obtain ⟨parameters, same⟩ := ih there
        exact ⟨parameter :: parameters, by rw [List.map_cons, List.map_cons, here, same]⟩
  obtain ⟨parameters, same⟩ := listed
  refine ⟨parameters, ?_⟩
  rw [← same]
  exact ((Reads.front _).bind read).bind (.pure _ _)

-----------------------------------------------------------------------------------------
-- The function `create`
-----------------------------------------------------------------------------------------

/-- The signature of `create`. Nothing stands before `fn`, and no generics or bounds stand behind the
name.
-/
theorem runs_signature (typed : nested.type true = typeExpr inner true) {text : String}
    (admitted : (wordsOfPath text).all isSegmentWord = true)
    {parameters : List FunctionParameter} {arguments : Tokens}
    (listed
      : Reads (commaList (argument nested)) (parameters.map Argument.parameter) arguments [])
    (body rest : Tokens)
    : Runs (signature nested false)
        (.word "fn" 2 :: .word "create" 2 :: .group .paren arguments :: .mark '-' true
          :: .mark '>' false :: (pathTokens text ++ .group .brace body :: rest))
        (.group .brace body :: rest) := by
  have noWord {word : String} {first : String} {more : Tokens} (apart : first ≠ word)
      : isWord word (.word first 2 :: more) = false :=
    decide_eq_false apart
  refine (Reads.optionalWord_false (noWord (by decide))).discard.andThen ?_
  refine (Reads.optionalWord_false (noWord (by decide))).andThen ?_
  refine (Reads.sees _ _).andThen (.ite_false Bool.false_ne_true ?_)
  refine (Reads.optionalWord_false (noWord (by decide))).discard.andThen ?_
  refine ((Reads.optionalWord_false (noWord (by decide))).bind
    (.ite_false Bool.false_ne_true (.pure _ _)) : Reads convention () _ _).andThen ?_
  refine (Reads.of_eq (.word "fn" 2 :: ·) fun _ => rfl : Reads (keyword "fn") () _ _).andThen ?_
  refine (Reads.of_eq (.word "create" 2 :: ·) fun _ => rfl
    : Reads identifier ("create", 2) _ _).andThen ?_
  have generics (more : Tokens)
      : Reads (genericParameters nested) ⟨false, false⟩ (.group .paren arguments :: more)
          (.group .paren arguments :: more) :=
    (Reads.sees _ _).bind (.ite_false Bool.false_ne_true (.pure _ _))
  refine (generics _).andThen ((listed.group .paren _).andThen ?_)
  rw [readArguments_parameters]
  have ends : EndsType (.group .brace body :: rest) := ⟨rfl, rfl, rfl⟩
  have output
      : Runs (signatureOutput nested)
          (.mark '-' true :: .mark '>' false :: (pathTokens text ++ .group .brace body :: rest))
          (.group .brace body :: rest) := by
    have written : Runs (writtenType nested) (pathTokens text ++ .group .brace body :: rest)
        (.group .brace body :: rest) :=
      (runs_pathTokens typed admitted ends).captured.bind fun _ =>
        (Reads.print _ _).andThen (.pure _ _)
    refine (Reads.optionalMark_true rfl rfl).andThen ?_
    exact .ite_true rfl (written.bind fun _ => .pure _ _)
  refine output.bind fun type => ?_
  exact (Reads.of_eq id fun _ => whereClause_none rfl _).discard.andThen (.pure _ _)

/-- The body of `create`, whatever its statements are. -/
theorem runs_functionBody {body : Tokens} (plain : isMark "#" body = false) (rest : Tokens)
    : Runs (functionBody nested) (.group .brace body :: rest) rest := by
  have kept : Reads (readOrKept nested.statements) () body [] := by
    intro printed
    rw [readOrKept]
    split
    · exact ⟨_, rfl⟩
    · exact ⟨_, rfl⟩
  refine Runs.group .brace ?_ rest
  refine (Reads.of_eq id fun _ => innerAttributes_none plain _).andThen ?_
  exact kept.andThen (.pure _ _)

/-- What may be printed as it stands is read as it would be otherwise. -/
theorem Runs.orKept {parser : Parser (α × Bool)} {before after : Tokens}
    (runs : Runs parser before after)
    : Runs (orKept parser) before after := by
  obtain ⟨⟨answer, kept⟩, read⟩ := runs
  refine ⟨answer, fun printed => ?_⟩
  obtain ⟨shown, read⟩ := read printed
  cases kept <;> exact ⟨_, by rw [Grammar.orKept, bind_apply, asWrittenIf, read]; rfl⟩

/-- The function `create`. -/
theorem runs_functionForm {tokens body : Tokens} (plain : isMark "#" body = false)
    (signed : Runs (signature nested false) tokens [.group .brace body])
    : Runs (functionForm nested false) tokens [] := by
  refine signed.bind fun found => ?_
  refine (Reads.optionalMark_false rfl).andThen (.ite_false Bool.false_ne_true ?_)
  exact (runs_functionBody plain []).bind fun _ => .pure _ _

/-- The function `create` as the member of a block. -/
theorem runs_implMember {more : Tokens}
    (formed : Runs (functionForm nested false) (.word "fn" 2 :: more) [])
    : Runs (implMember nested) (.word "pub" 2 :: .word "fn" 2 :: more) [] := by
  refine Runs.orKept ?_
  refine (Reads.of_eq id fun _ => outerAttributes_none rfl _).andThen ?_
  refine (Reads.of_eq (.word "pub" 2 :: ·) fun _ => visibility_pub ..).andThen ?_
  refine (Reads.front _).andThen (.ite_false Bool.false_ne_true ?_)
  refine (Reads.front _).andThen (.ite_true rfl ?_)
  exact formed.bind fun _ => .pure _ _

/-- A block of one member. -/
theorem runs_membersOf {member : Parser α} {first : Token} {more : Tokens}
    (plain : isMark "#" (first :: more) = false) (alone : Runs member (first :: more) [])
    (rest : Tokens)
    : Runs (membersOf nested member) (.group .brace (first :: more) :: rest) rest := by
  refine Runs.group .brace ?_ rest
  refine (Reads.of_eq id fun _ => innerAttributes_none plain _).andThen ?_
  refine Runs.bind ?_ fun _ => .pure _ _
  refine (Reads.front _).andThen ?_
  rw [List.length_cons]
  exact .many_cons rfl alone ⟨_, .many_nil rfl _ _⟩

/-- The block of a factory. It has no generics, no trait and no bounds. -/
theorem runs_implItem (typed : nested.type true = typeExpr inner true) {name : String}
    (named : Identifier.isReserved name = false) {block : Tokens}
    (members : Runs (membersOf nested (implMember nested)) [.group .brace block] [])
    : Runs (implItem nested []) [.word "impl" 2, .word name 2, .group .brace block] [] := by
  have target : Reads (nested.type true) (.path ⟨false, [⟨name, .none⟩]⟩)
      [.word name 2, .group .brace block] [.group .brace block] :=
    .of_eq _ fun printed => typed ▸ typeExpr_name inner named block [] printed
  have noConst : isWord "const" [.word name 2, .group .brace block] = false :=
    isWord_eq_false named rfl ..
  refine (Reads.of_eq id fun _ => visibility_none rfl _).andThen ?_
  refine (Reads.optionalWord_false rfl).discard.andThen ?_
  refine (Reads.optionalWord_false rfl).discard.andThen ?_
  refine (Reads.of_eq (.word "impl" 2 :: ·) fun _ => rfl : Reads (keyword "impl") () _ _).andThen ?_
  refine (Reads.sees _ _).andThen (.ite_false Bool.false_ne_true ?_)
  refine (Reads.pure _ _).andThen ((Reads.front _).andThen ?_)
  have noQuestion : isMark "?" [.word name 2, .group .brace block] = false := rfl
  have noNegation : isMark "!" [.word name 2, .group .brace block] = false := rfl
  refine .ite_false (by simp [noConst, noQuestion]) ((Reads.front _).andThen ?_)
  refine .ite_false (by simp [noNegation]) (target.andThen ?_)
  refine (Reads.optionalWord_false rfl).andThen ?_
  refine (Reads.require (by simp [noNegation]) _).andThen (.ite_false Bool.false_ne_true ?_)
  refine (Reads.pure _ _).andThen ?_
  refine (Reads.of_eq id fun _ => whereClause_none rfl _).discard.andThen ?_
  refine members.bind fun (more, found) => .ite_false ?_ (.pure _ _)
  simp [noConst, noQuestion]

/-- The block of a factory as an item. -/
theorem runs_item {rest : Tokens}
    (block : Runs (implItem nested []) (.word "impl" 2 :: rest) [])
    : Runs (item nested) (.word "impl" 2 :: rest) [] := by
  have unseen (printed : Tokens)
      : behind (discard visibility) ⟨.word "impl" 2 :: rest, printed⟩
        = some (some (.word "impl" 2 :: rest), ⟨.word "impl" 2 :: rest, printed⟩) := by
    rw [behind, discard_of_some (visibility_none rfl printed)]
    rfl
  refine Runs.orKept ?_
  refine (Reads.of_eq id fun _ => outerAttributes_none rfl _).andThen ?_
  refine (Reads.of_eq id unseen).andThen ((Reads.sees _ _).andThen ?_)
  rwa [itemForm_impl]

/-- The tokens of a factory are the items of a file. Every part is read where it stands, from the
parameters up to the two items.
-/
theorem exists_items?_factoryTokens {injectable : Injectable}
    (target : (wordsOfPath injectable.target.qualified).all isSegmentWord = true)
    (parameters
      : ∀ type ∈ injectable.parameters, (wordsOfPath type.qualified).all isSegmentWord = true)
    : ∃ items, items? (factoryTokens injectable) = some items := by
  have named := isReserved_factoryName injectable
  have plain := isMark_bodyTokens injectable
  generalize same : languageFor (factoryTokens injectable) = nested
  obtain ⟨depth, rfl⟩ : ∃ depth, nested = language (depth + 3) := ⟨_, same.symm⟩
  have typed : (language (depth + 3)).type true = typeExpr (language (depth + 2)) true := rfl
  obtain ⟨listed, read⟩ :=
    reads_parametersTokens typed (rfl : _ = typeExpr (language (depth + 1)) true) rfl parameters
  have signed := runs_signature typed target read (bodyTokens injectable) []
  have member := runs_implMember (runs_functionForm plain signed)
  have block := runs_item (runs_implItem typed named (runs_membersOf rfl member []))
  rw [← createMember, ← createTokens_eq] at block
  have struct
      : Runs (item (language (depth + 3))) (factoryTokens injectable)
          [.word "impl" 2, .word injectable.factoryName 2,
            .group .brace (createTokens injectable)] :=
    ⟨_, fun printed => ⟨_, item_struct _ named _ printed⟩⟩
  have listed : Runs (fileItems (language (depth + 3))) (factoryTokens injectable) [] := by
    have noInner (printed : Tokens)
        : innerAttributes (language (depth + 3)) ⟨factoryTokens injectable, printed⟩
          = some ([], ⟨factoryTokens injectable, printed⟩) := by
      rw [innerAttributes, manyWhile_apply]
      exact many_of_stops _ rfl _
    refine (Reads.of_eq id noInner).discard.andThen ((Reads.front _).andThen ?_)
    exact .many_cons rfl struct (.many_cons rfl block ⟨_, .many_nil rfl _ _⟩)
  obtain ⟨items, read⟩ := listed
  obtain ⟨shown, read⟩ := read []
  exact ⟨items, by rw [items?, Parser.all?, same, read]⟩

end Wiring.Source.Grammar
