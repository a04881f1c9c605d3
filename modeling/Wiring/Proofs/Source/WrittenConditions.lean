import Wiring.Proofs.Source.ParserSteps
import Wiring.Source.Condition

/-! Conditions as they are written. What stands between the parentheses of `cfg` is read as the condition
that it is written as, however deep its lists lie inside one another.
-/

namespace Wiring.Source

open Grammar

namespace Condition

-----------------------------------------------------------------------------------------
-- Tokens of a condition
-----------------------------------------------------------------------------------------

/-- The tokens are the words with `::` between them. -/
inductive SpellsWords : Tokens → List String → Prop
  | last {word : String} {line : Nat} (admitted : isSegment [.word word line] = true)
    : SpellsWords [.word word line] [word]
  | further {word : String} {line : Nat} {tokens : Tokens} {words : List String}
    (admitted : isSegment [.word word line] = true) (rest : SpellsWords tokens words)
    : SpellsWords (.word word line :: .mark ':' true :: .mark ':' false :: tokens) (word :: words)

/-- The tokens are a path without arguments. -/
inductive SpellsPath : Tokens → Bool → List String → Prop
  | plain {tokens : Tokens} {words : List String} (spelled : SpellsWords tokens words)
    : SpellsPath tokens false words
  | rooted {tokens : Tokens} {words : List String} (spelled : SpellsWords tokens words)
    : SpellsPath (.mark ':' true :: .mark ':' false :: tokens) true words

mutual

/-- The tokens are written as the condition. -/
inductive Spells : Tokens → Condition → Prop
  | flag {tokens : Tokens} {rooted : Bool} {words : List String}
    (path : SpellsPath tokens rooted words)
    : Spells tokens (.atom (Token.textOf tokens))
  | setting {tokens : Tokens} {rooted : Bool} {words : List String}
    (path : SpellsPath tokens rooted words) (value : String)
    : Spells (tokens ++ [.mark '=' false, .literal value])
        (.atom (Token.textOf (tokens ++ [.mark '=' false, .literal value])))
  | all {line : Nat} {delimiter : Delimiter} {inner : Tokens} {conditions : List Condition}
    (each : SpellsEach inner conditions)
    : Spells [.word "all" line, .group delimiter inner] (.all conditions)
  | any {line : Nat} {delimiter : Delimiter} {inner : Tokens} {conditions : List Condition}
    (each : SpellsEach inner conditions)
    : Spells [.word "any" line, .group delimiter inner] (.any conditions)
  | not {line : Nat} {delimiter : Delimiter} {inner : Tokens} {condition : Condition}
    (single : SpellsEach inner [condition])
    : Spells [.word "not" line, .group delimiter inner] (.not condition)
  /-- A list with a head of its own, whatever stands in it. -/
  | other {tokens : Tokens} {rooted : Bool} {words : List String} {delimiter : Delimiter}
    {inner : Tokens} (path : SpellsPath tokens rooted words)
    (own : ∀ head ∈ ["all", "any", "not"], rooted = true ∨ words ≠ [head])
    : Spells (tokens ++ [.group delimiter inner])
        (.atom (Token.textOf (tokens ++ [.group delimiter inner])))

/-- The tokens are written as the conditions, with commas between them. -/
inductive SpellsEach : Tokens → List Condition → Prop
  | nil : SpellsEach [] []
  | last {tokens : Tokens} {condition : Condition} (spelled : Spells tokens condition)
    : SpellsEach tokens [condition]
  | cons {tokens rest : Tokens} {condition : Condition} {conditions : List Condition}
    {joint : Bool} (spelled : Spells tokens condition) (others : SpellsEach rest conditions)
    : SpellsEach (tokens ++ .mark ',' joint :: rest) (condition :: conditions)

end

-----------------------------------------------------------------------------------------
-- Reading paths and values
-----------------------------------------------------------------------------------------

variable {tokens rest : Tokens} {rooted : Bool} {words : List String}

/-- Whether tokens end a condition that stands in front of them. -/
def EndsCondition (rest : Tokens) : Prop :=
  rest = [] ∨ ∃ joint more, rest = .mark ',' joint :: more

/-- The words of a path are read one by one, by induction on them. -/
theorem plainSegments_of_spells (spelled : SpellsWords tokens words)
    (ends : isMark "::" rest = false) {fuel : Nat} (enough : tokens.length ≤ fuel) (printed : Tokens)
    : plainSegments fuel ⟨tokens ++ rest, printed⟩
      = some (words, ⟨rest, tokens.reverse ++ printed⟩) := by
  induction spelled generalizing fuel printed with
  | @last word line admitted =>
      obtain ⟨left, rfl⟩ : ∃ left, fuel = left + 1 := ⟨fuel - 1, by simp at enough; omega⟩
      have starts : isSegment (.word word line :: rest) = true := admitted
      simp [plainSegments, bind_apply, sees_apply, starts, require_apply, anyWord_apply,
        optionalMark_apply, ends, pure_apply]
  | @further word line tokens words admitted _ ih =>
      obtain ⟨left, rfl⟩ : ∃ left, fuel = left + 1 := ⟨fuel - 1, by simp at enough; omega⟩
      have starts
          : isSegment (.word word line :: .mark ':' true :: .mark ':' false :: (tokens ++ rest)) = true :=
        admitted
      have fewer : tokens.length ≤ left := by
        simp at enough
        omega
      have later := ih fewer (.mark ':' false :: .mark ':' true :: .word word line :: printed)
      have separated
          : optionalMark "::"
              ⟨.mark ':' true :: .mark ':' false :: (tokens ++ rest), .word word line :: printed⟩
            = some (true, ⟨tokens ++ rest,
                .mark ':' false :: .mark ':' true :: .word word line :: printed⟩) :=
        rfl
      simp [plainSegments, bind_apply, sees_apply, starts, require_apply, anyWord_apply, separated,
        map_apply, later]

/-- A path starts with a word that can be a segment. -/
theorem exists_word_of_spells (spelled : SpellsWords tokens words)
    : ∃ word line more, tokens = .word word line :: more ∧ isSegment [.word word line] = true := by
  cases spelled with
  | last admitted => exact ⟨_, _, _, rfl, admitted⟩
  | further admitted => exact ⟨_, _, _, rfl, admitted⟩

/-- Tokens that spell a path are read as it, up to what does not continue it, by whether the path
starts at the root.
-/
theorem plainPath_of_spells (spelled : SpellsPath tokens rooted words)
    (ends : isMark "::" rest = false) (printed : Tokens)
    : plainPath ⟨tokens ++ rest, printed⟩
      = some ((rooted, words), ⟨rest, tokens.reverse ++ printed⟩) := by
  cases spelled with
  | plain spelled =>
      have enough : tokens.length ≤ (tokens ++ rest).length := by simp
      have read := plainSegments_of_spells spelled ends enough printed
      have unrooted
          : optionalMark "::" ⟨tokens ++ rest, printed⟩ = some (false, ⟨tokens ++ rest, printed⟩) := by
        obtain ⟨word, line, more, rfl, _⟩ := exists_word_of_spells spelled
        rfl
      simp only [plainPath, bind_of_some unrooted, bind_of_some (front_apply _), bind_of_some read,
        pure_apply]
  | @rooted tokens _ spelled =>
      have enough : tokens.length ≤ (tokens ++ rest).length := by simp
      have read := plainSegments_of_spells spelled ends enough
        (.mark ':' false :: .mark ':' true :: printed)
      have marked
          : optionalMark "::" ⟨.mark ':' true :: .mark ':' false :: (tokens ++ rest), printed⟩
            = some (true, ⟨tokens ++ rest, .mark ':' false :: .mark ':' true :: printed⟩) :=
        rfl
      simp only [plainPath, List.cons_append, bind_of_some marked, bind_of_some (front_apply _),
        bind_of_some read, pure_apply]
      simp

/-- What an attribute says behind its path. -/
def attributeInput (nested : Nested) (rooted : Bool) (words : List String) : Parser Attribute := do
  if ← sees isAnyGroup then
    let (_, inner) ← anyGroup
    return ⟨rooted, words, .group inner⟩
  else if ← optionalMark "=" then
    let value ← front
    require (!(isMark "#" value && isGroup .bracket value.tail))
    discard (nested.expression true)
    return ⟨rooted, words, .value⟩
  else return ⟨rooted, words, .none⟩

/-- What an attribute says begins with its path. The path starts with no `unsafe`. -/
theorem attributeContents_of_path (nested : Nested) (spelled : SpellsPath tokens rooted words)
    (ends : isMark "::" rest = false)
    : attributeContents nested ⟨tokens ++ rest, []⟩
      = attributeInput nested rooted words ⟨rest, tokens.reverse⟩ := by
  have safe
      : optionalWord "unsafe" ⟨tokens ++ rest, []⟩ = some (false, ⟨tokens ++ rest, []⟩) := by
    apply optionalWord_none
    cases spelled with
    | plain spelled =>
        obtain ⟨word, line, more, rfl, admitted⟩ := exists_word_of_spells spelled
        apply decide_eq_false
        intro same
        subst same
        contradiction
    | rooted => rfl
  have read := plainPath_of_spells spelled ends []
  rw [List.append_nil] at read
  calc
    attributeContents nested ⟨tokens ++ rest, []⟩
    _ = (plainPath >>= fun path => attributeInput nested path.1 path.2) ⟨tokens ++ rest, []⟩ := by
      rw [attributeContents, bind_of_some safe]
      rfl
    _ = attributeInput nested rooted words ⟨rest, tokens.reverse⟩ := by rw [bind_of_some read]

-----------------------------------------------------------------------------------------
-- Reading conditions
-----------------------------------------------------------------------------------------

section

variable {nested : Nested}

/-- What ends a condition does not continue a path. -/
theorem EndsCondition.isMark_colons (ends : EndsCondition rest)
    : isMark "::" rest = false := by
  rcases ends with rfl | ⟨joint, more, rfl⟩
  · rfl
  · cases joint <;> rfl

/-- Whether literals are read as expressions, up to the end of a condition. -/
def ReadsLiterals (nested : Nested) : Prop :=
  ∀ (value : String) (rest printed : Tokens),
    EndsCondition rest
    → nested.expression true ⟨.literal value :: rest, printed⟩
      = some (.plain, ⟨rest, .literal value :: printed⟩)

/-- A path that ends is read as a flag. -/
theorem condition_of_flag (spelled : SpellsPath tokens rooted words) (ends : EndsCondition rest)
    (fuel : Nat) (printed : Tokens)
    : condition nested (fuel + 1) ⟨tokens ++ rest, printed⟩
      = some (.atom (Token.textOf tokens), ⟨rest, printed⟩) := by
  have read
      : attributeContents nested ⟨tokens ++ rest, []⟩
        = some (⟨rooted, words, .none⟩, ⟨rest, tokens.reverse⟩) := by
    rw [attributeContents_of_path nested spelled ends.isMark_colons]
    rcases ends with rfl | ⟨joint, more, rfl⟩
    · rfl
    · rfl
  simp [condition, bind_apply, captured_apply, read, pure_apply]

/-- A path with a value behind it is read as a setting. Behind the path stands a mark, and behind that
a value that is read in full.
-/
theorem condition_of_setting (literals : ReadsLiterals nested)
    (spelled : SpellsPath tokens rooted words) (value : String) (ends : EndsCondition rest)
    (fuel : Nat) (printed : Tokens)
    : condition nested (fuel + 1) ⟨tokens ++ .mark '=' false :: .literal value :: rest, printed⟩
      = some (.atom (Token.textOf (tokens ++ [.mark '=' false, .literal value])), ⟨rest, printed⟩) := by
  have valued := literals value rest (.mark '=' false :: tokens.reverse) ends
  have read
      : attributeContents nested ⟨tokens ++ .mark '=' false :: .literal value :: rest, []⟩
        = some (⟨rooted, words, .value⟩,
            ⟨rest, .literal value :: .mark '=' false :: tokens.reverse⟩) := by
    rw [attributeContents_of_path nested spelled rfl]
    have marked
        : optionalMark "=" ⟨.mark '=' false :: .literal value :: rest, tokens.reverse⟩
          = some (true, ⟨.literal value :: rest, .mark '=' false :: tokens.reverse⟩) :=
      rfl
    have plain : isMark "#" (.literal value :: rest) = false := rfl
    have shapeless : isAnyGroup (.mark '=' false :: .literal value :: rest) = false := rfl
    simp [attributeInput, bind_apply, sees_apply, shapeless, marked, front_apply, plain,
      require_apply, map_apply, discard_apply, valued]
  simp [condition, bind_apply, captured_apply, read, pure_apply]

/-- A path with a list behind it is read as that list, if all of the list can be read. -/
theorem condition_of_list (spelled : SpellsPath tokens rooted words) (delimiter : Delimiter)
    (inner : Tokens) (fuel : Nat) (printed : Tokens)
    : condition nested (fuel + 1) ⟨tokens ++ .group delimiter inner :: rest, printed⟩
      = some
          (match (commaList (condition nested fuel)).all? inner with
            | some conditions =>
                ofList ⟨rooted, words, .group inner⟩ conditions
                  (Token.textOf (tokens ++ [.group delimiter inner]))
            | none => .atom (Token.textOf (tokens ++ [.group delimiter inner])),
          ⟨rest, printed⟩) := by
  have read
      : attributeContents nested ⟨tokens ++ .group delimiter inner :: rest, []⟩
        = some (⟨rooted, words, .group inner⟩, ⟨rest, .group delimiter inner :: tokens.reverse⟩) := by
    rw [attributeContents_of_path nested spelled rfl]
    rfl
  cases contents : (commaList (condition nested fuel)).all? inner <;>
    simp [condition, bind_apply, captured_apply, read, contents, pure_apply]

/-- Weights add up. -/
theorem weightOf_append (tokens others : Tokens)
    : Token.weightOf (tokens ++ others) = Token.weightOf tokens + Token.weightOf others := by
  induction tokens with
  | nil => simp [Token.weightOf]
  | cons token rest ih => simp [Token.weightOf, ih, Nat.add_assoc]

section

variable {α : Type} {item : Parser α} {result : α} {printed middle : Tokens}

/-- The last item stands at the end of the tokens. -/
theorem separatedUpTo_last (nonempty : tokens ≠ [])
    (read : item ⟨tokens, printed⟩ = some (result, ⟨[], middle⟩)) (room : Nat)
    : separatedUpTo List.isEmpty "," item (room + 1) ⟨tokens, printed⟩
      = some ([(result, false)], ⟨[], middle⟩) := by
  have goesOn : tokens.isEmpty = false := List.isEmpty_eq_false_iff.mpr nonempty
  simp [separatedUpTo, bind_apply, sees_apply, goesOn, read, pure_apply]

/-- Behind any other item stand a comma and further items. -/
theorem separatedUpTo_cons {joint : Bool} {items : List (α × Bool)} {after : Position} {room : Nat}
    (nonempty : tokens ≠ []) (read : item ⟨tokens, printed⟩ = some (result, ⟨.mark ',' joint :: rest, middle⟩))
    (further
      : separatedUpTo List.isEmpty "," item room ⟨rest, .mark ',' false :: middle⟩
        = some (items, after))
    : separatedUpTo List.isEmpty "," item (room + 1) ⟨tokens, printed⟩
      = some ((result, true) :: items, after) := by
  have goesOn : tokens.isEmpty = false := List.isEmpty_eq_false_iff.mpr nonempty
  have comma
      : mark "," ⟨.mark ',' joint :: rest, middle⟩
        = some ((), ⟨rest, .mark ',' false :: middle⟩) :=
    rfl
  simp [separatedUpTo, bind_apply, sees_apply, goesOn, read, comma, further, map_apply]

/-- A list is read if its conditions are, up to its end. -/
theorem all?_of_separated {inner after : Tokens} {items : List (α × Bool)}
    (read : separatedUpTo List.isEmpty "," item inner.length ⟨inner, []⟩ = some (items, ⟨[], after⟩))
    : (commaList item).all? inner = some (items.map Prod.fst) := by
  have whole : commaList item ⟨inner, []⟩ = some (items.map Prod.fst, ⟨[], after⟩) := by
    rw [commaList, separated, bind_apply, bind_of_some (front_apply _), read]
    rfl
  rw [Parser.all?, whole]

end

/-- A list behind a single word, whose contents are known. -/
theorem condition_of_head {head : String} {line : Nat} (admitted : isSegment [.word head line] = true)
    (delimiter : Delimiter) {inner after : Tokens} {fuel : Nat} {items : List (Condition × Bool)}
    (read
      : separatedUpTo List.isEmpty "," (condition nested fuel) inner.length ⟨inner, []⟩
        = some (items, ⟨[], after⟩))
    (printed : Tokens)
    : condition nested (fuel + 1) ⟨.word head line :: .group delimiter inner :: rest, printed⟩
      = some
          (ofList ⟨false, [head], .group inner⟩ (items.map Prod.fst)
            (Token.textOf [.word head line, .group delimiter inner]),
          ⟨rest, printed⟩) := by
  have path : SpellsPath [.word head line] false [head] := .plain (.last admitted)
  have list := @condition_of_list _ rest _ _ nested path delimiter inner fuel printed
  rw [all?_of_separated read] at list
  exact list

/-- Under a head of its own, a list is taken as a whole. -/
theorem ofList_of_own (own : ∀ head ∈ ["all", "any", "not"], rooted = true ∨ words ≠ [head])
    (input : AttributeInput) (conditions : List Condition) (text : String)
    : ofList ⟨rooted, words, input⟩ conditions text = .atom text := by
  have unnamed {head : String} (among : head ∈ ["all", "any", "not"])
      : Attribute.isNamed ⟨rooted, words, input⟩ head = false := by
    rcases own head among with prefixed | other
    · simp [Attribute.isNamed, prefixed]
    · simp [Attribute.isNamed, other]
  rw [ofList.eq_def, unnamed (by simp), unnamed (by simp), if_neg Bool.false_ne_true,
    if_neg Bool.false_ne_true]
  split
  · rw [unnamed (by simp), if_neg Bool.false_ne_true]
  · rfl

/-- A path is spelled by some tokens. -/
theorem SpellsPath.ne_nil (spelled : SpellsPath tokens rooted words)
    : tokens ≠ [] := by
  cases spelled with
  | plain spelled =>
      obtain ⟨word, line, more, rfl, _⟩ := exists_word_of_spells spelled
      exact List.cons_ne_nil _ _
  | rooted => exact List.cons_ne_nil _ _

/-- So is a condition. -/
theorem Spells.ne_nil {written : Condition} (spelled : Spells tokens written)
    : tokens ≠ [] := by
  cases spelled with
  | flag path => exact path.ne_nil
  | setting path | other path => exact List.append_ne_nil_of_left_ne_nil path.ne_nil _
  | all | any | not => exact List.cons_ne_nil _ _

/-- What stands in a list is lighter than the list. -/
theorem weightOf_inner {head : String} {line : Nat} {delimiter : Delimiter} {inner : Tokens} {fuel : Nat}
    (enough : Token.weightOf [.word head line, .group delimiter inner] ≤ fuel + 1)
    : Token.weightOf inner ≤ fuel := by
  simp only [Token.weightOf, Token.weight] at enough
  omega

/-- Tokens have weight. -/
theorem weightOf_pos (nonempty : tokens ≠ [])
    : 0 < Token.weightOf tokens := by
  cases tokens with
  | nil => contradiction
  | cons token rest => cases token <;> simp only [Token.weightOf, Token.weight] <;> omega

mutual

/-- What is written as a condition is read as it, however deep its lists lie inside one another, by the
rules in which conditions are spelled; the conditions in a list weigh less than the list.
-/
theorem condition_of_spells (literals : ReadsLiterals nested) {tokens rest : Tokens}
    {written : Condition} {fuel : Nat} (spelled : Spells tokens written) (ends : EndsCondition rest)
    (enough : Token.weightOf tokens ≤ fuel) (printed : Tokens)
    : condition nested fuel ⟨tokens ++ rest, printed⟩ = some (written, ⟨rest, printed⟩) := by
  obtain ⟨left, rfl⟩ : ∃ left, fuel = left + 1 :=
    Nat.exists_eq_succ_of_ne_zero
      (Nat.ne_of_gt (Nat.lt_of_lt_of_le (weightOf_pos spelled.ne_nil) enough))
  match spelled with
  | .flag path => exact condition_of_flag path ends left printed
  | .setting path value =>
      rw [List.append_assoc]
      exact condition_of_setting literals path value ends left printed
  | .all each =>
      obtain ⟨items, after, read, rfl⟩ :=
        separated_of_spells literals each (weightOf_inner enough) (Nat.le_refl _) []
      exact condition_of_head rfl _ read printed
  | .any each =>
      obtain ⟨items, after, read, rfl⟩ :=
        separated_of_spells literals each (weightOf_inner enough) (Nat.le_refl _) []
      exact condition_of_head rfl _ read printed
  | .not single =>
      obtain ⟨items, after, read, same⟩ :=
        separated_of_spells literals single (weightOf_inner enough) (Nat.le_refl _) []
      rw [List.cons_append, List.singleton_append, condition_of_head rfl _ read, same]
      rfl
  | .other path own =>
      rw [List.append_assoc, List.singleton_append, condition_of_list path]
      split
      · rw [ofList_of_own own]
      · rfl

/-- Conditions with commas between them are read one by one. -/
theorem separated_of_spells (literals : ReadsLiterals nested) {inner : Tokens}
    {conditions : List Condition} {fuel room : Nat} (each : SpellsEach inner conditions)
    (enough : Token.weightOf inner ≤ fuel) (fits : inner.length ≤ room) (printed : Tokens)
    : ∃ items after,
        separatedUpTo List.isEmpty "," (condition nested fuel) room ⟨inner, printed⟩
          = some (items, ⟨[], after⟩)
        ∧ items.map Prod.fst = conditions := by
  match each with
  | .nil => exact ⟨[], printed, by cases room <;> rfl, rfl⟩
  | @SpellsEach.last _ condition spelled =>
      obtain ⟨left, rfl⟩ : ∃ left, room = left + 1 :=
        Nat.exists_eq_succ_of_ne_zero
          (Nat.ne_of_gt (Nat.lt_of_lt_of_le (List.length_pos_iff.mpr spelled.ne_nil) fits))
      have read := condition_of_spells literals spelled (.inl rfl) enough printed
      rw [List.append_nil] at read
      exact ⟨[(condition, false)], printed, separatedUpTo_last spelled.ne_nil read left, rfl⟩
  | @SpellsEach.cons tokens rest condition _ joint spelled others =>
      rw [List.length_append, List.length_cons] at fits
      rw [weightOf_append, Token.weightOf] at enough
      obtain ⟨left, rfl⟩ : ∃ left, room = left + 1 := ⟨room - 1, by omega⟩
      have here : Token.weightOf tokens ≤ fuel := by omega
      have later : Token.weightOf rest ≤ fuel := by omega
      have fewer : rest.length ≤ left := by omega
      have read := condition_of_spells literals spelled (.inr ⟨joint, rest, rfl⟩) here printed
      obtain ⟨items, after, further, rfl⟩ :=
        separated_of_spells literals others later fewer (.mark ',' false :: printed)
      have nonempty : tokens ++ .mark ',' joint :: rest ≠ [] :=
        List.append_ne_nil_of_left_ne_nil spelled.ne_nil _
      exact ⟨(condition, true) :: items, after, separatedUpTo_cons nonempty read further, rfl⟩

end

/-- The grammar reads literals at any depth of three or more: an expression, an operand and the
literal.
-/
theorem readsLiterals_language (depth : Nat)
    : ReadsLiterals (language (depth + 3)) := by
  intro value rest printed ends
  have operand
      : (language (depth + 2)).operand true false ⟨.literal value :: rest, printed⟩
        = some (.plain, ⟨rest, .literal value :: printed⟩) := by
    rcases ends with rfl | ⟨joint, more, rfl⟩
    · rfl
    · rfl
  have operators
      : (language (depth + 2)).operators .plain true .jump ⟨rest, .literal value :: printed⟩
        = some (.plain, ⟨rest, .literal value :: printed⟩) := by
    rcases ends with rfl | ⟨joint, more, rfl⟩
    · rfl
    · cases joint <;> rfl
  exact (bind_of_some operand).trans operators

/-- What stands between the parentheses of `cfg` is the condition that is looked at. -/
theorem ofAttribute?_of_spells {tokens : Tokens} {written : Condition} (spelled : Spells tokens written)
    : ofAttribute? ⟨false, ["cfg"], .group tokens⟩ = some written := by
  have literals : ReadsLiterals (languageFor tokens) :=
    readsLiterals_language (16 * Token.weightOf tokens + 13)
  have enough : Token.weightOf tokens ≤ depthOf tokens := by
    rw [depthOf]
    omega
  have read := condition_of_spells literals spelled (.inl rfl) enough []
  rw [List.append_nil] at read
  have named : Attribute.isNamed ⟨false, ["cfg"], .group tokens⟩ "cfg" = true := by
    simp [Attribute.isNamed]
  simp [ofAttribute?, named, Parser.all?, read]

end

end Condition

end Wiring.Source
