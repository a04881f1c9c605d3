import Wiring.Proofs.Artifact.RelativePath
import Wiring.Source.File

/-! Reading cuts no text into words that are no identifiers: every word among the tokens of a text
can stand as an identifier in generated code.
-/

namespace Wiring.Source

open Identifier Lexer

-----------------------------------------------------------------------------------------
-- Tokens whose words are identifiers
-----------------------------------------------------------------------------------------

mutual

/-- Whether the words of a token are identifiers, those inside groups included. -/
def Token.Named : Token → Prop
  | .word text _ => isToken text = true
  | .group _ inner => Token.AllNamed inner
  | _ => True

/-- All words among the tokens are identifiers. -/
def Token.AllNamed : List Token → Prop
  | [] => True
  | token :: rest => token.Named ∧ Token.AllNamed rest

end

/-- Tokens are named one by one. -/
theorem Token.allNamed_iff {tokens : List Token}
    : AllNamed tokens ↔ ∀ token ∈ tokens, token.Named := by
  induction tokens with
  | nil => simp [AllNamed]
  | cons token rest ih => rw [AllNamed, ih, List.forall_mem_cons]

/-- Whether the word of a lexeme is an identifier. -/
def Lexeme.Named : Lexeme → Prop
  | .word text _ => isToken text = true
  | _ => True

-----------------------------------------------------------------------------------------
-- Cutting
-----------------------------------------------------------------------------------------

/-- A word that is cut off is an identifier, for it is cut where its characters stop to continue names.
-/
theorem Lexer.isToken_of_word? {chars name after : List Char}
    (found : word? chars = some (name, after))
    : isToken (String.ofList name) = true := by
  unfold word? at found
  split at found
  · rename_i char rest
    dsimp only at found
    split at found
    · rename_i permitted
      obtain ⟨rfl, rfl⟩ := Prod.mk.inj (Option.some.inj found)
      have named : isName (char :: rest.takeWhile Unicode.isContinue) = true := by
        simp [isName, permitted.1, List.all_takeWhile]
      simp only [isToken, String.toList_ofList, named, Bool.true_and, Bool.not_eq_true']
      simpa using permitted.2
    · contradiction
  · contradiction
  · rename_i char rest _ _
    split at found
    · rename_i starts
      obtain ⟨rfl, rfl⟩ := Prod.mk.inj (Option.some.inj found)
      apply Identifier.isToken_of_isName
      simp [isName, starts, List.all_takeWhile]
    · contradiction
  · contradiction

/-- Documentation has the one word `doc`. -/
theorem Lexer.named_documentation (inner : Bool) (contents : List Char) (line : Nat)
    : ∀ lexeme ∈ documentation inner contents line, lexeme.Named := by
  have word : isToken "doc" = true := by decide
  cases inner <;> simp [documentation, Lexeme.Named, word]

/-- A bracket has no word. -/
theorem Lexer.named_delimiter? {char : Char} {lexeme : Lexeme}
    (found : delimiter? char = some lexeme)
    : lexeme.Named := by
  unfold delimiter? at found
  split at found
  iterate 6
    obtain rfl := Option.some.inj found
    trivial
  contradiction

/-- Nor has a mark. -/
theorem Lexer.named_mark? {char : Char} {rest : List Char} {lexeme : Lexeme}
    (found : mark? char rest = some lexeme)
    : lexeme.Named := by
  unfold mark? at found
  split at found
  · split at found
    · split at found
      · obtain rfl := Option.some.inj found
        trivial
      · contradiction
    · obtain rfl := Option.some.inj found
      trivial
  · contradiction

/-- So whatever lexeme is read, its words are identifiers, by the kinds of lexemes in turn. -/
theorem Lexer.named_lexeme? {line : Nat} {char : Char} {rest : List Char} {step : Step}
    (read : lexeme? line char rest = some step)
    : ∀ lexeme ∈ step.found, lexeme.Named := by
  unfold lexeme? at read
  dsimp only at read
  split at read
  · obtain rfl := Option.some.inj read
    simp [Lexeme.Named]
  · split at read
    · rename_i opened
      obtain rfl := Option.some.inj read
      simpa using named_delimiter? opened
    · split at read
      · obtain rfl := Option.some.inj read
        simp [Step.over, Lexeme.Named]
      · split at read
        · rename_i marked
          obtain rfl := Option.some.inj read
          simpa using named_mark? marked
        · split at read
          · contradiction
          · obtain ⟨⟨name, after⟩, word, rfl⟩ := Option.map_eq_some_iff.mp read
            simpa [Lexeme.Named] using isToken_of_word? word

/-- The same for comments and spaces, of which only documentation becomes lexemes, by the kinds of
blanks and comments in turn.
-/
theorem Lexer.named_step? {line : Nat} {char : Char} {rest : List Char} {step : Step}
    (read : step? line char rest = some step)
    : ∀ lexeme ∈ step.found, lexeme.Named := by
  unfold step? at read
  dsimp only at read
  split at read
  · obtain rfl := Option.some.inj read
    simp
  · split at read
    · obtain rfl := Option.some.inj read
      simp
    · split at read
      · obtain ⟨_, _, rfl⟩ := Option.map_eq_some_iff.mp read
        simp [Step.over]
      · split at read
        · split at read
          · contradiction
          · obtain rfl := Option.some.inj read
            exact named_documentation _ _ _
        · exact named_lexeme? read

/-- Every word that a text is cut into is an identifier, by induction on the steps. -/
theorem Lexer.named_lexemes {line steps : Nat} {chars : List Char} {found : List Lexeme}
    (read : lexemes line steps chars = some found)
    : ∀ lexeme ∈ found, lexeme.Named := by
  induction steps generalizing line chars found with
  | zero =>
      cases chars with
      | nil => simp_all [lexemes]
      | cons => contradiction
  | succ steps ih =>
      cases chars with
      | nil => simp_all [lexemes]
      | cons char rest =>
          rw [lexemes] at read
          split at read
          · contradiction
          · rename_i step first
            obtain ⟨others, later, rfl⟩ := Option.map_eq_some_iff.mp read
            intro lexeme member
            rcases List.mem_append.mp member with here | there
            · exact named_step? first lexeme here
            · exact ih later lexeme there

-----------------------------------------------------------------------------------------
-- Nesting
-----------------------------------------------------------------------------------------

/-- Nesting takes words as they are, by induction along its steps. -/
theorem Lexer.allNamed_nest {outer : List (Delimiter × List Token)} {read tokens : List Token}
    {rest : List Lexeme} (nested : nest outer read rest = some tokens)
    (around : ∀ entry ∈ outer, Token.AllNamed entry.2) (before : Token.AllNamed read)
    (after : ∀ lexeme ∈ rest, lexeme.Named)
    : Token.AllNamed tokens := by
  have reversed {tokens : List Token} (named : Token.AllNamed tokens)
      : Token.AllNamed tokens.reverse := by
    rw [Token.allNamed_iff] at named ⊢
    exact fun token member => named token (List.mem_reverse.mp member)
  fun_induction nest outer read rest with
  | case1 read =>
      obtain rfl := Option.some.inj nested
      exact reversed before
  | case2 => contradiction
  | case3 outer read delimiter rest ih =>
      exact ih nested (List.forall_mem_cons.mpr ⟨before, around⟩) trivial
        (List.forall_mem_cons.mp after).2
  | case4 => contradiction
  | case5 outer read delimiter outside rest ih =>
      obtain ⟨here, around⟩ := List.forall_mem_cons.mp around
      exact ih nested around ⟨reversed before, here⟩ (List.forall_mem_cons.mp after).2
  | case6 => contradiction
  | case7 outer read text line rest ih =>
      obtain ⟨here, after⟩ := List.forall_mem_cons.mp after
      exact ih nested around ⟨here, before⟩ after
  | case8 outer read char joint rest ih =>
      exact ih nested around ⟨trivial, before⟩ (List.forall_mem_cons.mp after).2
  | case9 outer read text rest ih =>
      exact ih nested around ⟨trivial, before⟩ (List.forall_mem_cons.mp after).2

/-- Every word of a text is an identifier. -/
theorem Token.allNamed_of_ofChars? {chars : List Char} {tokens : List Token}
    (read : Token.ofChars? chars = some tokens)
    : Token.AllNamed tokens := by
  obtain ⟨found, cut, nested⟩ := Option.bind_eq_some_iff.mp read
  exact allNamed_nest nested (by simp) trivial (named_lexemes cut)

/-- A text that is read as an identifier is one. -/
theorem isToken_of_readIdentifier? {text name : String} (read : readIdentifier? text = some name)
    : isToken name = true := by
  unfold readIdentifier? at read
  split at read
  · rename_i word line tokens
    split at read
    · contradiction
    · obtain rfl := Option.some.inj read
      exact (Token.allNamed_of_ofChars? tokens).1
  · contradiction

end Wiring.Source
