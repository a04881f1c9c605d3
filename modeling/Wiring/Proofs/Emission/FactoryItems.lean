import Wiring.Proofs.Emission.FactoryTokens
import Wiring.Proofs.Source.ParserSteps

/-! What a factory declares. Its tokens are read as one type and one block for that type, which
holds the function `create` alone; nothing else can come of them.
-/

namespace Wiring.Source.Grammar

open Wiring.Emission

attribute [local simp] bind_apply pure_apply failure_apply map_apply discard_apply ite_run
  front_apply sees_apply require_apply print_apply anyWord_apply identifier_apply keyword_apply
  optionalWord_apply mark_apply optionalMark_apply group_apply captured_apply
  many_zero many_succ manyWhile_apply
  isWord isOneOf isMark isName startsMarks marksOf isGroup isAnyGroup Parser.allPrinted?
  Nested.type

/-- Whether the word can be a segment of a path. -/
def isSegmentWord (word : String) : Bool :=
  ["super", "self", "crate", "try", "Self"].contains word || !Identifier.isReserved word

variable (nested : Nested)

/-- A word in front of no arguments is a segment by itself, if it can be one. -/
theorem segment_word (word : String) (rest printed : Tokens)
    (ends : startsArguments .type rest = false)
    : segment nested .type ⟨.word word 2 :: rest, printed⟩
      = if isSegmentWord word then some ((⟨word, .none⟩, true), ⟨rest, .word word 2 :: printed⟩)
        else none := by
  by_cases keyword : word = "super" ∨ word = "self" ∨ word = "crate" ∨ word = "try"
  · have admitted : isSegmentWord word = true := by
      rcases keyword with rfl | rfl | rfl | rfl <;> rfl
    simp [segment, admitted, keyword]
  · by_cases owner : word = "Self"
    · simp [segment, isSegmentWord, owner, ends]
    · have same : isSegmentWord word = !Identifier.isReserved word := by
        simp_all [isSegmentWord]
      cases reserved : Identifier.isReserved word <;>
        simp [segment, same, keyword, owner, reserved, ends]

/-- What ends a path that stands as a type. -/
def endsPath (rest : Tokens) : Bool :=
  !isMark "::" rest && !isMark "<" rest

/-- What ends a path starts no arguments. -/
theorem startsArguments_of_endsPath {rest : Tokens} (ends : endsPath rest = true)
    : startsArguments .type rest = false := by
  simp only [endsPath, Bool.and_eq_true, Bool.not_eq_true'] at ends
  simp [startsArguments, ends.1, ends.2, -isMark]

/-- The segments behind the first one. -/
def furtherTokens (words : List String) : Tokens :=
  words.flatMap fun word => pathSeparator ++ [Token.word word 2]

/-- The words of a path behind the first one each bring their separator. -/
theorem wordTokens_cons (word : String) (words : List String)
    : wordTokens (word :: words) = .word word 2 :: furtherTokens words := by
  induction words generalizing word with
  | nil => rfl
  | cons next words ih =>
      have tail := ih next
      simp only [wordTokens, List.map_cons] at tail ⊢
      rw [separatedBy, tail]
      rfl

/-- Nor do further segments, which start with colons and no angle bracket behind them. -/
theorem startsArguments_furtherTokens (words : List String) {rest : Tokens}
    (ends : endsPath rest = true)
    : startsArguments .type (furtherTokens words ++ rest) = false := by
  cases words with
  | nil => exact startsArguments_of_endsPath ends
  | cons word words => simp [furtherTokens, pathSeparator, startsArguments]

/-- Further segments are read one by one as long as they can be segments, by induction on them. -/
theorem many_furtherTokens (words : List String) {rest : Tokens} (ends : endsPath rest = true)
    (fuel : Nat) (enough : words.length ≤ fuel) (printed : Tokens)
    : many (fun tokens => isMark "::" tokens && !isGroup .paren (tokens.drop 2))
          (mark "::" >>= fun _ => segment nested .type) fuel ⟨furtherTokens words ++ rest, printed⟩
      = if words.all isSegmentWord then
          some (words.map fun word => (⟨word, .none⟩, true),
            ⟨rest, (furtherTokens words).reverse ++ printed⟩)
        else none := by
  induction words generalizing fuel printed with
  | nil =>
    have stop : isMark "::" rest = false := by
      simp only [endsPath, Bool.and_eq_true, Bool.not_eq_true'] at ends
      exact ends.1
    cases fuel with
    | zero => simp [furtherTokens]
    | succ fuel => simp [furtherTokens, stop, -isMark]
  | cons word words ih =>
      obtain ⟨fuel, rfl⟩ : ∃ less, fuel = less + 1 := ⟨fuel - 1, by simp at enough; omega⟩
      have tail := ih fuel (by simpa using enough)
        (.word word 2 :: .mark ':' false :: .mark ':' true :: printed)
      have apart := startsArguments_furtherTokens words ends
      have split
          : furtherTokens (word :: words)
            = .mark ':' true :: .mark ':' false :: .word word 2 :: furtherTokens words :=
        rfl
      have separator (behind : Tokens)
          : mark "::" ⟨.mark ':' true :: .mark ':' false :: behind, printed⟩
            = some ((), ⟨behind, .mark ':' false :: .mark ':' true :: printed⟩) :=
        rfl
      rw [split, many_succ, if_pos (by simp), bind_apply]
      simp only [List.cons_append]
      rw [separator, Option.bind_some, segment_word _ _ _ _ apart]
      by_cases admitted : isSegmentWord word
      · simp only [admitted, if_true, Option.bind_some, tail, List.all_cons, Bool.true_and]
        split <;> simp
      · simp [admitted]

/-- A further segment takes three tokens. -/
theorem length_furtherTokens (words : List String)
    : (furtherTokens words).length = 3 * words.length := by
  simp [furtherTokens, pathSeparator, Nat.mul_comm]

/-- The segments of a path, from behind its leading `::`. -/
def segmentsFrom (rooted : Bool) : Parser ReadPath := do
  let first ← segment nested .type
  let others ←
    manyWhile (fun tokens => isMark "::" tokens && !isGroup .paren (tokens.drop 2)) do
      mark "::"
      segment nested .type
  return .ofSegments rooted (first :: others)

/-- A path is read from its colons on. -/
theorem path_eq : path nested .type = optionalMark "::" >>= segmentsFrom nested :=
  rfl

/-- The words of a path are its segments, none of which has arguments. The first word is a segment, and
`many` reads the others as long as a separator stands in front.
-/
theorem segmentsFrom_wordTokens (rooted : Bool) {words : List String} (some : words ≠ [])
    {rest : Tokens} (ends : endsPath rest = true) (printed : Tokens)
    : segmentsFrom nested rooted ⟨wordTokens words ++ rest, printed⟩
      = if words.all isSegmentWord then
          .some (.ofSegments rooted (words.map fun word => (⟨word, .none⟩, true)),
            ⟨rest, (wordTokens words).reverse ++ printed⟩)
        else none := by
  obtain ⟨word, words, rfl⟩ := List.exists_cons_of_ne_nil some
  have apart := startsArguments_furtherTokens words ends
  have enough : words.length ≤ (furtherTokens words ++ rest).length := by
    rw [List.length_append, length_furtherTokens]
    omega
  rw [wordTokens_cons, List.cons_append, segmentsFrom, bind_apply, segment_word _ _ _ _ apart]
  by_cases admitted : isSegmentWord word
  · rw [if_pos admitted, Option.bind_some]
    dsimp only
    rw [bind_apply, manyWhile_apply]
    rw [many_furtherTokens nested words ends _ enough]
    cases others : words.all isSegmentWord <;> simp [admitted, others]
  · simp [admitted]

/-- Reading a printed path stops where it ends. A path of the crate starts with its first word, and any
other one with a separator.
-/
theorem path_pathTokens (text : String) {rest : Tokens} (ends : endsPath rest = true)
    (printed : Tokens)
    : path nested .type ⟨pathTokens text ++ rest, printed⟩
      = if (wordsOfPath text).all isSegmentWord then
          some (.ofSegments ((wordsOfPath text).head? ≠ some "crate")
              ((wordsOfPath text).map fun word => (⟨word, .none⟩, true)),
            ⟨rest, (pathTokens text).reverse ++ printed⟩)
        else none := by
  have words := wordsOfPath_ne_nil text
  rw [path_eq, bind_apply, pathTokens]
  split
  · rename_i isLocal
    have plain
        : optionalMark "::" ⟨wordTokens (wordsOfPath text) ++ rest, printed⟩
          = some (false, ⟨wordTokens (wordsOfPath text) ++ rest, printed⟩) := by
      obtain ⟨word, others, same⟩ := List.exists_cons_of_ne_nil words
      simp [same, wordTokens_cons]
    rw [plain, Option.bind_some]
    dsimp only
    rw [segmentsFrom_wordTokens nested false words ends]
    simp [isLocal]
  · rename_i isForeign
    have rooted
        : optionalMark "::" ⟨pathSeparator ++ wordTokens (wordsOfPath text) ++ rest, printed⟩
          = some (true,
              ⟨wordTokens (wordsOfPath text) ++ rest, pathSeparator.reverse ++ printed⟩) := by
      simp [pathSeparator]
    rw [rooted, Option.bind_some]
    dsimp only
    rw [segmentsFrom_wordTokens nested true words ends]
    simp [isForeign]

/-- What ends a type that is a path. -/
structure EndsType (rest : Tokens) : Prop where
  path : endsPath rest = true
  noCall : isMark "!" rest = false
  noSum : isMark "+" rest = false

/-- A path starts with the crate or with a `::`. -/
theorem pathTokens_cases (text : String)
    : (∃ more, pathTokens text = .word "crate" 2 :: more)
      ∨ ∃ more, pathTokens text = .mark ':' true :: .mark ':' false :: more := by
  unfold pathTokens
  split
  · rename_i isLocal
    obtain ⟨words, same⟩ := List.head?_eq_some_iff.mp isLocal
    exact .inl ⟨furtherTokens words, by rw [same, wordTokens_cons]⟩
  · exact .inr ⟨_, rfl⟩

/-- A type that starts as a path does, and not with a word that starts another type, is one. -/
theorem typeExpr_of_startsPath {tokens : Tokens} (single : isAnyGroup tokens = false)
    (noFor : isWord "for" tokens = false)
    (noBuiltin : (isWord "builtin" tokens && isMark "#" tokens.tail) = false)
    (starts : startsPath tokens = true) (printed : Tokens)
    : typeExpr nested true ⟨tokens, printed⟩ = pathType nested true [] ⟨tokens, printed⟩ := by
  rw [typeExpr, bind_of_some (front_apply _)]
  dsimp only
  split
  · exact absurd single (by simp)
  · exact absurd single (by simp)
  · rw [noFor, noBuiltin, starts, if_neg Bool.false_ne_true, if_neg Bool.false_ne_true, if_pos rfl]

/-- A type that starts as a printed path does is one. -/
theorem typeExpr_eq_pathType (text : String) (rest printed : Tokens)
    : typeExpr nested true ⟨pathTokens text ++ rest, printed⟩
      = pathType nested true [] ⟨pathTokens text ++ rest, printed⟩ := by
  rcases pathTokens_cases text with ⟨more, same⟩ | ⟨more, same⟩
  all_goals
    rw [same]
    exact typeExpr_of_startsPath nested rfl rfl rfl rfl printed

/-- A path stands for its type where neither a call nor further bounds follow. -/
theorem pathType_of_path {tokens rest shown : Tokens} {read : ReadPath}
    (unqualified : isMark "<" tokens = false)
    (found : path nested .type ⟨tokens, []⟩ = some (read, ⟨rest, shown⟩))
    (noCall : isCallMark rest = false) (noSum : isMark "+" rest = false) (printed : Tokens)
    : pathType nested true [] ⟨tokens, printed⟩
      = some (.path read.path, ⟨rest, shown ++ printed⟩) := by
  have whole : anyPath nested .type ⟨tokens, []⟩ = some ((false, read), ⟨rest, shown⟩) := by
    rw [anyPath, bind_of_some (sees_apply _ _), unqualified, if_neg Bool.false_ne_true,
      bind_of_some found]
    rfl
  have unseen : sees isCallMark ⟨rest, printed⟩ = some (false, ⟨rest, printed⟩) := by
    rw [sees_apply, noCall]
  rw [pathType, bind_apply, captured_apply, whole]
  simp [-mark_apply, -isMark, noCall, noSum]

/-- A type that is a printed path, up to what ends it. Neither a qualified type nor a call or a sum of
bounds can be meant here.
-/
theorem typeExpr_pathTokens (text : String) {rest : Tokens} (ends : EndsType rest)
    (printed : Tokens)
    : typeExpr nested true ⟨pathTokens text ++ rest, printed⟩
      = if (wordsOfPath text).all isSegmentWord then
          some (.path ⟨(wordsOfPath text).head? ≠ some "crate",
              (wordsOfPath text).map fun word => ⟨word, .none⟩⟩,
            ⟨rest, (pathTokens text).reverse ++ printed⟩)
        else none := by
  have unqualified : isMark "<" (pathTokens text ++ rest) = false := by
    rcases pathTokens_cases text with ⟨more, same⟩ | ⟨more, same⟩ <;> simp [same]
  have read := path_pathTokens nested text ends.path []
  have noCall : isCallMark rest = false := by
    simp only [isCallMark, ends.noCall, Bool.false_and]
  rw [typeExpr_eq_pathType]
  cases admitted : (wordsOfPath text).all isSegmentWord with
  | false => simp [pathType, anyPath, unqualified, read, admitted, -mark_apply, -isMark]
  | true =>
      rw [admitted, if_pos rfl] at read
      rw [pathType_of_path nested unqualified read noCall ends.noSum]
      simp [ReadPath.ofSegments, Function.comp_def]

/-- A type that is one name, up to a block. A word that is not reserved starts a path, and the block
ends it.
-/
theorem typeExpr_name {name : String} (plain : Identifier.isReserved name = false)
    (body rest printed : Tokens)
    : typeExpr nested true ⟨.word name 2 :: .group .brace body :: rest, printed⟩
      = some (.path ⟨false, [⟨name, .none⟩]⟩,
          ⟨.group .brace body :: rest, .word name 2 :: printed⟩) := by
  have admitted : isSegmentWord name = true := by simp [isSegmentWord, plain]
  have noFor : isWord "for" (.word name 2 :: .group .brace body :: rest) = false := by
    have apart : name ≠ "for" := by
      rintro rfl
      exact absurd plain (by decide)
    simp [apart]
  have noBuiltin : (isWord "builtin" (.word name 2 :: .group .brace body :: rest)
      && isMark "#" (.group .brace body :: rest)) = false := Bool.and_false _
  have starts : startsPath (.word name 2 :: .group .brace body :: rest) = true := by
    simp [startsPath, plain]
  have words : [name].all isSegmentWord = true := by simp [admitted]
  have segments := segmentsFrom_wordTokens nested false (List.cons_ne_nil name [])
    (rfl : endsPath (.group .brace body :: rest) = true) []
  have found
      : path nested .type ⟨.word name 2 :: .group .brace body :: rest, []⟩
        = some (.ofSegments false [(⟨name, .none⟩, true)],
            ⟨.group .brace body :: rest, [.word name 2]⟩) := by
    rw [if_pos words] at segments
    rw [path_eq, bind_of_some (rfl : optionalMark "::" _ = some (false, _))]
    exact segments
  rw [typeExpr_of_startsPath nested rfl noFor noBuiltin starts]
  exact pathType_of_path nested rfl found rfl rfl printed

variable {nested} {inner : Nested} (typed : nested.type true = typeExpr inner true)

include typed in
/-- The type that a signature returns, up to the body. -/
theorem rest_signatureOutput {text : String} {body rest printed : Tokens}
    {output : Option TypeExpr} {after : Position}
    (read
      : signatureOutput nested
          ⟨.mark '-' true :: .mark '>' false :: (pathTokens text ++ .group .brace body :: rest),
            printed⟩
        = some (output, after))
    : after.rest = .group .brace body :: rest := by
  have ends : EndsType (.group .brace body :: rest) := ⟨by simp [endsPath], by simp, by simp⟩
  have type := typeExpr_pathTokens inner text ends []
  simp only [Nested.type] at typed
  cases admitted : (wordsOfPath text).all isSegmentWord with
  | false => simp [signatureOutput, writtenType, typed, type, admitted] at read
  | true =>
    simp [signatureOutput, writtenType, typed, type, admitted] at read
    simp [← read.2]

include typed in
/-- The signature of `create`, up to the body. Behind the parentheses stands the arrow, and behind that
the type of the target.
-/
theorem rest_signature {text : String} {arguments body rest printed : Tokens} {found : Signature}
    {after : Position}
    (read
      : signature nested false
          ⟨.word "fn" 2 :: .word "create" 2 :: .group .paren arguments :: .mark '-' true
              :: .mark '>' false :: (pathTokens text ++ .group .brace body :: rest), printed⟩
        = some (found, after))
    : after.rest = .group .brace body :: rest := by
  have plain : Identifier.isReserved "create" = false := by decide
  simp only [Nested.type] at typed
  simp only [signature, Bool.false_and, Bool.false_eq_true, if_false, convention,
    genericParameters, bind_pure_comp, bind_assoc, bind_apply, discard_apply, optionalWord_apply,
    isWord, String.reduceEq, decide_false, Option.map_some, sees_apply, ite_run, pure_apply,
    Option.bind_some, keyword_apply, identifier_apply, isName, isMark, String.reduceToList,
    decide_true, if_true, anyWord_apply, plain, Bool.not_false, startsMarks, group_apply,
    Parser.allPrinted?] at read
  obtain ⟨⟨declared, position⟩, parenthesized, read⟩ := Option.bind_eq_some_iff.mp read
  obtain ⟨contents, _, same⟩ := Option.map_eq_some_iff.mp parenthesized
  obtain ⟨rfl, rfl⟩ := Prod.mk.inj same
  cases listed : readArguments contents.1 with
  | none => simp [listed] at read
  | some both =>
      simp only [listed, bind_apply] at read
      obtain ⟨⟨output, position⟩, returned, read⟩ := Option.bind_eq_some_iff.mp read
      have behind := rest_signatureOutput typed returned
      simp [whereClause, behind] at read
      rw [← read.2, behind]

/-- Without a hash mark there are no inner attributes. -/
theorem innerAttributes_none {rest : Tokens} (plain : isMark "#" rest = false) (printed : Tokens)
    : innerAttributes nested ⟨rest, printed⟩ = some ([], ⟨rest, printed⟩) := by
  rw [innerAttributes, manyWhile_apply]
  cases rest with
  | nil => exact many_zero ..
  | cons first rest => rw [List.length_cons, many_succ, plain]; rfl

/-- Nor outer ones. -/
theorem outerAttributes_none {rest : Tokens} (plain : isMark "#" rest = false) (printed : Tokens)
    : outerAttributes nested ⟨rest, printed⟩ = some ([], ⟨rest, printed⟩) := by
  rw [outerAttributes, manyWhile_apply]
  cases rest with
  | nil => exact many_zero ..
  | cons first rest => rw [List.length_cons, many_succ, plain]; rfl

/-- `pub` in front of a word is a visibility by itself. -/
theorem visibility_pub (word : String) (rest printed : Tokens)
    : visibility ⟨.word "pub" 2 :: .word word 2 :: rest, printed⟩
      = some (true, ⟨.word word 2 :: rest, .word "pub" 2 :: printed⟩) := by
  simp [visibility]

/-- Without `pub` an item is private. -/
theorem visibility_none {rest : Tokens} (plain : isWord "pub" rest = false) (printed : Tokens)
    : visibility ⟨rest, printed⟩ = some (false, ⟨rest, printed⟩) := by
  simp [visibility, plain, -isWord]

/-- A body that starts with no attribute. -/
theorem functionBody_plain {body rest printed : Tokens} {attributes : List Attribute}
    {after : Position} (plain : isMark "#" body = false)
    (read : functionBody nested ⟨.group .brace body :: rest, printed⟩ = some (attributes, after))
    : attributes = [] ∧ after.rest = rest := by
  rw [functionBody, group_apply, if_pos rfl] at read
  obtain ⟨⟨found, shown⟩, contents, same⟩ := Option.map_eq_some_iff.mp read
  obtain ⟨rfl, rfl⟩ := Prod.mk.inj same
  rw [Parser.allPrinted?, bind_apply, innerAttributes_none plain, Option.bind_some] at contents
  simp only [bind_apply] at contents
  cases kept : readOrKept nested.statements ⟨body, []⟩ with
  | none => simp [kept] at contents
  | some answer =>
      obtain ⟨⟨⟩, ⟨left, printed⟩⟩ := answer
      simp only [kept, Option.bind_some, pure_apply] at contents
      cases left with
      | nil => exact ⟨(Prod.mk.inj (Option.some.inj contents)).1.symm, rfl⟩
      | cons => cases contents

include typed in
/-- The function `create`: it has a body, which starts with no attribute. -/
theorem functionForm_create {text : String} {arguments body printed : Tokens}
    {found : Signature} {more : List Attribute} {hasBody : Bool} {after : Position}
    (plain : isMark "#" body = false)
    (read
      : functionForm nested false
          ⟨.word "fn" 2 :: .word "create" 2 :: .group .paren arguments :: .mark '-' true
              :: .mark '>' false :: (pathTokens text ++ [Token.group .brace body]), printed⟩
        = some ((found, more, hasBody), after))
    : more = [] ∧ hasBody = true ∧ after.rest = [] := by
  rw [functionForm] at read
  obtain ⟨signature, ⟨left, before⟩, first, read⟩ := exists_of_bind read
  obtain rfl : left = [.group .brace body] := rest_signature typed first
  simp at read
  obtain ⟨bodied, rfl, rfl⟩ := read
  obtain ⟨rfl, done⟩ := functionBody_plain plain bodied
  exact ⟨rfl, rfl, done⟩

include typed in
/-- The member `create` of a block has no attributes, and nothing is left behind it. The member starts
with `pub fn`, so it is read by the form of a function.
-/
theorem implMember_create {text : String} {arguments body printed : Tokens}
    {found : Member} {after : Position} (plain : isMark "#" body = false)
    (read
      : implMember nested
          ⟨.word "pub" 2 :: .word "fn" 2 :: .word "create" 2 :: .group .paren arguments
              :: .mark '-' true :: .mark '>' false
              :: (pathTokens text ++ [Token.group .brace body]), printed⟩
        = some (found, after))
    : (∃ signature, found = .function [] signature) ∧ after.rest = [] := by
  obtain ⟨kept, last, read, same⟩ := rest_of_orKept read
  have plainFront (rest : Tokens) : isMark "#" (.word "pub" 2 :: rest) = false := rfl
  have noDefault (rest : Tokens) : isWord "default" (.word "fn" 2 :: rest) = false := rfl
  have starts (rest : Tokens) : startsSignature false (.word "fn" 2 :: rest) = true := rfl
  simp only [bind_apply, outerAttributes_none (plainFront _), visibility_pub, front_apply,
    Option.bind_some, ite_run, noDefault, starts, Bool.false_and, Bool.false_eq_true, if_false,
    if_true, pure_apply] at read
  obtain ⟨⟨⟨signature, more, hasBody⟩, position⟩, formed, named⟩ := Option.bind_eq_some_iff.mp read
  obtain ⟨rfl, rfl, done⟩ := functionForm_create typed plain formed
  simp at named
  obtain ⟨⟨rfl, rfl⟩, rfl⟩ := named
  exact ⟨⟨signature, rfl⟩, same ▸ done⟩

include typed in
/-- The members of a block that holds `create` alone. The one member takes up the whole block. -/
theorem membersOf_create {text : String} {arguments body rest printed : Tokens}
    {attributes : List Attribute} {members : List Member} {after : Position}
    (plain : isMark "#" body = false)
    (read
      : membersOf nested (implMember nested)
          ⟨.group .brace
              (.word "pub" 2 :: .word "fn" 2 :: .word "create" 2 :: .group .paren arguments
                :: .mark '-' true :: .mark '>' false
                :: (pathTokens text ++ [Token.group .brace body])) :: rest, printed⟩
        = some ((attributes, members), after))
    : attributes = [] ∧ (∃ signature, members = [.function [] signature]) ∧ after.rest = rest := by
  rw [membersOf, group_apply, if_pos rfl] at read
  obtain ⟨⟨⟨found, listed⟩, shown⟩, contents, same⟩ := Option.map_eq_some_iff.mp read
  simp only [Prod.mk.injEq] at same
  obtain ⟨⟨rfl, rfl⟩, rfl⟩ := same
  rw [Parser.allPrinted?, bind_apply, innerAttributes_none rfl, Option.bind_some] at contents
  simp only [bind_apply, untilEnd, manyWhile_apply, List.length_cons, many_succ, List.isEmpty_cons,
    Bool.not_false, if_true] at contents
  cases first
      : implMember nested
          ⟨.word "pub" 2 :: .word "fn" 2 :: .word "create" 2 :: .group .paren arguments
            :: .mark '-' true :: .mark '>' false :: (pathTokens text ++ [Token.group .brace body]),
            []⟩ with
  | none => simp [first] at contents
  | some answer =>
      obtain ⟨member, ⟨left, shown⟩⟩ := answer
      obtain ⟨⟨signature, rfl⟩, done⟩ := implMember_create typed plain first
      obtain rfl : left = [] := done
      simp only [first, Option.bind_some] at contents
      obtain ⟨⟨rfl, rfl⟩, rfl⟩ := contents
      exact ⟨rfl, ⟨signature, rfl⟩, rfl⟩

/-- `impl` starts a block. -/
theorem itemForm_impl (nested : Nested) (attributes : List Attribute) (visible : Bool)
    (rest : Tokens)
    : itemForm nested attributes visible (.word "impl" 2 :: rest) = implItem nested attributes :=
  rfl

/-- `struct` starts a structure. -/
theorem itemForm_struct (nested : Nested) (attributes : List Attribute) (visible : Bool)
    (rest : Tokens)
    : itemForm nested attributes visible (.word "struct" 2 :: rest)
      = always (typeItem nested attributes .struct "struct" (structureBody nested)) :=
  rfl

/-- The members of a factory's block. -/
abbrev createMember (text : String) (arguments body : Tokens) : Tokens :=
  .word "pub" 2 :: .word "fn" 2 :: .word "create" 2 :: .group .paren arguments
    :: .mark '-' true :: .mark '>' false :: (pathTokens text ++ [Token.group .brace body])

/-- The function of a factory is the one member of its block. -/
theorem createTokens_eq (injectable : Injectable)
    : createTokens injectable
      = createMember injectable.target.qualified (parametersTokens injectable.parameters)
          (bodyTokens injectable) := by
  simp [createTokens]

/-- Without `where` there are no further bounds. -/
theorem whereClause_none {rest : Tokens} (apart : isWord "where" rest = false)
    (printed : Tokens)
    : whereClause nested ⟨rest, printed⟩ = some (false, ⟨rest, printed⟩) := by
  simp [whereClause, apart, -isWord]

include typed in
/-- Whatever is read of a factory's block holds the function alone, since each of its parts is read to
the end.
-/
theorem implItem_create {name text : String} {arguments body printed : Tokens}
    {item : Item} {kept : Bool} {after : Position} (named : Identifier.isReserved name = false)
    (plain : isMark "#" body = false)
    (read
      : implItem nested []
          ⟨[.word "impl" 2, .word name 2, .group .brace (createMember text arguments body)],
            printed⟩
        = some ((item, kept), after))
    : (∃ signature,
        item = .implementation []
          ⟨false, false, some ⟨false, [⟨name, .none⟩]⟩, [.function [] signature]⟩)
      ∧ kept = false ∧ after.rest = [] := by
  have target := typeExpr_name inner named (createMember text arguments body) []
    (.word "impl" 2 :: printed)
  rw [← typed] at target
  have noConst (block : Tokens) : isWord "const" [.word name 2, .group .brace block] = false := by
    have apart : name ≠ "const" := by
      rintro rfl
      exact absurd named (by decide)
    simp [apart]
  have noParameters (block : Tokens)
      : startsParameters [.word name 2, .group .brace block] = false :=
    rfl
  have noRelaxing (block : Tokens) : isMark "?" [.word name 2, .group .brace block] = false := rfl
  have noNegation (block : Tokens) : isMark "!" [.word name 2, .group .brace block] = false := rfl
  have noPub (rest : Tokens) : isWord "pub" (.word "impl" 2 :: rest) = false := rfl
  have noDefault (rest : Tokens) : isWord "default" (.word "impl" 2 :: rest) = false := rfl
  have noUnsafe (rest : Tokens) : isWord "unsafe" (.word "impl" 2 :: rest) = false := rfl
  have noFor (block : Tokens) : isWord "for" [.group .brace block] = false := rfl
  have noWhere (block : Tokens) : isWord "where" [.group .brace block] = false := rfl
  rw [implItem, bind_of_some (visibility_none (noPub _) printed),
    bind_of_some (discard_of_some (optionalWord_none (noDefault _) printed)),
    bind_of_some (discard_of_some (optionalWord_none (noUnsafe _) printed)),
    bind_of_some (rfl : keyword "impl" _ = some _), bind_of_some (sees_apply _ _), noParameters,
    if_neg Bool.false_ne_true, bind_of_some (pure_apply _ _)] at read
  beta_reduce at read
  rw [bind_of_some (front_apply _)] at read
  dsimp only at read
  rw [noConst, noRelaxing, Bool.false_and, Bool.or_false, if_neg Bool.false_ne_true,
    bind_of_some (front_apply _)] at read
  dsimp only at read
  rw [noNegation, Bool.false_and, if_neg Bool.false_ne_true, bind_of_some target,
    bind_of_some (optionalWord_none (noFor _) _),
    bind_of_some (rfl : require (false || !false) _ = some _), if_neg Bool.false_ne_true,
    bind_of_some (pure_apply _ _),
    bind_of_some (discard_of_some (whereClause_none (noWhere _) _))] at read
  obtain ⟨⟨more, members⟩, position, listed, same⟩ := exists_of_bind read
  obtain ⟨rfl, ⟨signature, rfl⟩, done⟩ := membersOf_create typed plain listed
  obtain ⟨⟨rfl, rfl⟩, rfl⟩ := same
  exact ⟨⟨signature, rfl⟩, rfl, done⟩

/-- The block of a factory as an item. An item that starts with `impl` is read by the form of a block.
-/
theorem item_create {inner : Nested} (typed : nested.type true = typeExpr inner true)
    {name text : String} {arguments body printed : Tokens} {found : Item} {after : Position} (named : Identifier.isReserved name = false)
    (plain : isMark "#" body = false)
    (read
      : item nested
          ⟨[.word "impl" 2, .word name 2, .group .brace (createMember text arguments body)],
            printed⟩
        = some (found, after))
    : (∃ signature,
        found = .implementation []
          ⟨false, false, some ⟨false, [⟨name, .none⟩]⟩, [.function [] signature]⟩)
      ∧ after.rest = [] := by
  obtain ⟨kept, last, read, same⟩ := rest_of_orKept read
  have noPub (rest : Tokens) : isWord "pub" (.word "impl" 2 :: rest) = false := rfl
  have plainFront (rest : Tokens) : isMark "#" (.word "impl" 2 :: rest) = false := rfl
  simp only [bind_apply, outerAttributes_none (plainFront _), Option.bind_some, behind,
    discard_apply, visibility_none (noPub _), Option.map_some, sees_apply, itemForm_impl] at read
  obtain ⟨made, _, done⟩ := implItem_create typed named plain read
  exact ⟨made, same ▸ done⟩

/-- What the type of a factory carries. -/
def derives : Attribute :=
  ⟨false, ["derive"], .group derivedTraits⟩

/-- The derivation is read as the list of its traits. -/
theorem attributeContents_derives (nested : Nested)
    : (attributeContents nested).allPrinted? [.word "derive" 2, .group .paren derivedTraits]
      = some (derives, [.word "derive" 2, .group .paren derivedTraits]) :=
  rfl

/-- It is the one attribute of a factory. No second mark follows it. -/
theorem outerAttributes_derives (nested : Nested) (rest printed : Tokens)
    : outerAttributes nested ⟨.mark '#' false :: derivation :: .word "pub" 2 :: rest, printed⟩
      = some ([derives], ⟨.word "pub" 2 :: rest, derivation :: .mark '#' false :: printed⟩) := by
  have first
      : outerAttribute nested ⟨.mark '#' false :: derivation :: .word "pub" 2 :: rest, printed⟩
        = some (derives, ⟨.word "pub" 2 :: rest, derivation :: .mark '#' false :: printed⟩) := by
    have hash
        : mark "#" ⟨.mark '#' false :: derivation :: .word "pub" 2 :: rest, printed⟩
          = some ((), ⟨derivation :: .word "pub" 2 :: rest, .mark '#' false :: printed⟩) :=
      rfl
    rw [outerAttribute, bind_apply, hash, Option.bind_some, derivation]
    dsimp only
    rw [group_apply, if_pos rfl, attributeContents_derives]
    rfl
  have starts : isMark "#" (.mark '#' false :: derivation :: .word "pub" 2 :: rest) = true := rfl
  rw [outerAttributes, manyWhile_apply, List.length_cons, many_succ, if_pos starts, first,
    Option.bind_some]
  dsimp only
  rw [many_of_stops]
  · rfl
  · rfl

/-- The type of a factory as an item. A semicolon ends the fields at once. -/
theorem item_struct (nested : Nested) {name : String} (named : Identifier.isReserved name = false)
    (rest printed : Tokens)
    : item nested ⟨.mark '#' false :: derivation :: .word "pub" 2 :: .word "struct" 2
          :: .word name 2 :: .mark ';' false :: rest, printed⟩
      = some (.type [derives] .struct name 2,
          ⟨rest, .mark ';' false :: .word name 2 :: .word "struct" 2 :: .word "pub" 2 :: derivation
            :: .mark '#' false :: printed⟩) := by
  have body (shown : Tokens)
      : typeForm nested "struct" (structureBody nested)
          ⟨.word "struct" 2 :: .word name 2 :: .mark ';' false :: rest, shown⟩
        = some ((name, 2),
            ⟨rest, .mark ';' false :: .word name 2 :: .word "struct" 2 :: shown⟩) := by
    have read (shown : Tokens)
        : identifier ⟨.word name 2 :: .mark ';' false :: rest, shown⟩
          = some ((name, 2), ⟨.mark ';' false :: rest, .word name 2 :: shown⟩) := by
      simp [named]
    rw [typeForm, bind_of_some (rfl : keyword "struct" _ = some _), bind_of_some (read _)]
    rfl
  simp only [item, orKept, asWrittenIf, bind_apply, outerAttributes_derives, Option.bind_some,
    behind, discard_apply, visibility_pub, Option.map_some, sees_apply, itemForm_struct, always,
    typeItem, body, pure_apply, if_false, Bool.false_eq_true]

/-- No reserved word ends as the name of a factory does. -/
theorem isReserved_factoryName (injectable : Injectable)
    : Identifier.isReserved injectable.factoryName = false := by
  have apart : ∀ word ∈ Identifier.reserved, ¬ "Factory".toList <:+ word.toList := by decide
  rw [Identifier.isReserved, ← Bool.not_eq_true, List.contains_iff_mem]
  intro member
  exact apart _ member ⟨injectable.target.name.toList, by simp [Injectable.factoryName]⟩

/-- The body of `create` starts with a path. -/
theorem isMark_bodyTokens (injectable : Injectable)
    : isMark "#" (bodyTokens injectable) = false := by
  unfold bodyTokens
  rcases pathTokens_cases injectable.target.qualified with ⟨more, same⟩ | ⟨more, same⟩ <;>
    (rw [same]; rfl)

/-- Where the tokens of a factory are a source text, it declares one type, and one block of one
function, without attributes of its own. The two items are read one behind the other, and nothing is
left for a third one.
-/
theorem items?_factoryTokens {injectable : Injectable} {items : List Item}
    (read : items? (factoryTokens injectable) = some items)
    : ∃ signature,
        items =
          [.type [derives] .struct injectable.factoryName 2,
            .implementation []
              ⟨false, false, some ⟨false, [⟨injectable.factoryName, .none⟩]⟩,
                [.function [] signature]⟩] := by
  have named := isReserved_factoryName injectable
  have plain := isMark_bodyTokens injectable
  generalize same : languageFor (factoryTokens injectable) = nested
  have typed
      : nested.type true
        = typeExpr (language (16 * Token.weightOf (factoryTokens injectable) + 15)) true := by
    rw [← same]
    rfl
  have noInner
      : innerAttributes nested ⟨factoryTokens injectable, []⟩
        = some ([], ⟨factoryTokens injectable, []⟩) := by
    rw [innerAttributes, manyWhile_apply]
    exact many_of_stops _ rfl _
  rw [items?, Parser.all?, same, fileItems, bind_apply, discard_apply, noInner, Option.map_some,
    Option.bind_some] at read
  dsimp only at read
  rw [untilEnd, manyWhile_apply] at read
  cases listed : many (fun tokens => !tokens.isEmpty) (item nested)
      (factoryTokens injectable).length ⟨factoryTokens injectable, []⟩ with
  | none => simp [listed] at read
  | some answer =>
      obtain ⟨results, ⟨left, printed⟩⟩ := answer
      obtain ⟨first, others, middle, declared, further, rfl⟩ := exists_of_many_succ rfl listed
      have struct := (item_struct nested named _ _).symm.trans declared
      obtain ⟨rfl, rfl⟩ := Prod.mk.inj (Option.some.inj struct)
      obtain ⟨second, rest, last, implemented, done, rfl⟩ := exists_of_many_succ rfl further
      rw [createTokens_eq] at implemented
      obtain ⟨⟨signature, rfl⟩, ended⟩ := item_create typed named plain implemented
      rw [many_of_stops _ (by rw [ended]; rfl)] at done
      obtain ⟨rfl, rfl⟩ := Prod.mk.inj (Option.some.inj done)
      obtain rfl : left = [] := ended
      rw [listed] at read
      exact ⟨signature, (Option.some.inj read).symm⟩

end Wiring.Source.Grammar
