import Wiring.Emission.Component
import Wiring.Emission.Factory
import Wiring.Proofs.Emission.FactoryTokens
import Wiring.Proofs.Text.Segments
import Wiring.Proofs.Text.SnakeIdentifiers

/-! Which injectables code is generated for: those whose modules and names are spelled as identifiers.
Every word of a factory and of the component is then one, up to the names of the functions that
construct them, which must not start from a raw identifier.
-/

namespace Wiring

open Source

namespace Source.Identifier

/-- A name may be continued by characters that continue names. -/
theorem isName_append {name suffix : List Char} (named : isName name = true)
    (continues : ∀ char ∈ suffix, Unicode.isContinue char = true)
    : isName (name ++ suffix) = true := by
  cases name with
  | nil => simp [isName] at named
  | cons first rest =>
      simp only [List.cons_append, isName, Bool.and_eq_true, List.all_eq_true] at named ⊢
      refine ⟨named.1, fun char member => ?_⟩
      rcases List.mem_append.mp member with inside | behind
      · exact named.2 char inside
      · exact continues char behind

/-- More characters of names leave an identifier one, unless they complete a name with no raw form. -/
theorem isToken_append {text suffix : String} (token : isToken text = true)
    (continues : ∀ char ∈ suffix.toList, Unicode.isContinue char = true)
    (longer : ∀ word ∈ neverRaw, ¬ suffix.toList <:+ word.toList)
    : isToken (text ++ suffix) = true := by
  unfold isToken at token
  split at token
  · rename_i rest raw
    simp only [Bool.and_eq_true] at token
    have permitted : neverRaw.contains (String.ofList (rest ++ suffix.toList)) = false := by
      rw [Bool.eq_false_iff, ne_eq, List.contains_iff_mem]
      intro member
      exact longer _ member ⟨rest, by simp⟩
    rw [isToken, String.toList_append, raw, List.cons_append, List.cons_append]
    simp only [isName_append token.1 continues, permitted, Bool.not_false, Bool.and_self]
  · apply isToken_of_isName
    rw [String.toList_append]
    exact isName_append token continues

end Source.Identifier

namespace Emission

/-- Whether the module and the name of a type are spelled as identifiers. -/
structure IsSpelled (type : TypeName) : Prop where
  home : ∀ word ∈ wordsOfPath type.home, Identifier.isToken word = true
  name : Identifier.isToken type.name = true

/-- Whether all names that a factory takes from its injectable are spelled as identifiers. -/
structure AllSpelled (injectable : Injectable) : Prop where
  target : IsSpelled injectable.target
  named : Identifier.isToken injectable.constructor = true
  parameters : ∀ type ∈ injectable.parameters, IsSpelled type

-----------------------------------------------------------------------------------------
-- Paths
-----------------------------------------------------------------------------------------

/-- The words of something in a module are those of the module and its name. -/
theorem wordsOfPath_within {home name : String}
    (tokens : ∀ word ∈ wordsOfPath home, Identifier.isToken word = true)
    (token : Identifier.isToken name = true)
    : wordsOfPath (Segments.within home name) = wordsOfPath home ++ [name] := by
  rw [wordsOfPath, Segments.dropLeading_within (Segments.IsPath.starts tokens)]
  exact Segments.split_within
    (fun segment member => Segments.isSingle_of_isToken (tokens segment member))
    (Segments.isSingle_of_isToken token)

/-- Identifiers can be printed. -/
theorem word?_of_isToken {text : String} (token : Identifier.isToken text = true)
    : word? text = some text :=
  if_pos token

/-- A path of identifiers can be printed, by printing each of them. -/
theorem exists_path? {text : String}
    (tokens : ∀ word ∈ wordsOfPath text, Identifier.isToken word = true)
    : ∃ path, path? text = some path := by
  obtain ⟨words, found⟩ :=
    exists_mapM_eq_some fun word member => ⟨word, word?_of_isToken (tokens word member)⟩
  rw [path?]
  rw [wordsOfPath] at found
  simp only [found]
  exact ⟨_, rfl⟩

/-- So can a name in a module whose path is one. -/
theorem exists_path?_within {home name : String}
    (tokens : ∀ word ∈ wordsOfPath home, Identifier.isToken word = true)
    (token : Identifier.isToken name = true)
    : ∃ path, path? (Segments.within home name) = some path := by
  refine exists_path? fun word member => ?_
  rw [wordsOfPath_within tokens token] at member
  rcases List.mem_append.mp member with inHome | last
  · exact tokens word inHome
  · rw [List.mem_singleton.mp last]
    exact token

/-- The path of a spelled type can be printed. -/
theorem IsSpelled.exists_typePath? {type : TypeName} (spelled : IsSpelled type)
    : ∃ path, typePath? type = some path :=
  exists_path?_within spelled.home spelled.name

-----------------------------------------------------------------------------------------
-- Factories
-----------------------------------------------------------------------------------------

variable {injectable : Injectable}

namespace AllSpelled

/-- The name of a factory is an identifier, as it only adds letters to that of its target. -/
theorem isToken_factoryName (spelled : AllSpelled injectable)
    : Identifier.isToken injectable.factoryName = true :=
  Identifier.isToken_append spelled.target.name (forall_mem_of_all (by decide)) (by decide)

/-- The path of a factory beside its target can be printed. -/
theorem exists_beside? (spelled : AllSpelled injectable)
    : ∃ path, beside? injectable.target injectable.factoryName = some path :=
  exists_path?_within spelled.target.home spelled.isToken_factoryName

/-- The arguments of a constructor and their types have an answer each, if the types have one. -/
theorem exists_mapM_arguments {β : Type} {types : List TypeName} {answer? : String × TypeName → Option β}
    (each : ∀ name, ∀ type ∈ types, ∃ answer, answer? (name, type) = some answer)
    : ∃ answers, ((argumentNames types.length).zip types).mapM answer? = some answers :=
  exists_mapM_eq_some fun (name, type) member => each name type (List.of_mem_zip member).2

/-- Where all names are spelled as identifiers, the factory is generated. -/
theorem exists_factory? (spelled : AllSpelled injectable)
    : ∃ factory, factory? injectable = some factory := by
  obtain ⟨target, target?⟩ := spelled.target.exists_typePath?
  obtain ⟨parameters, parameters?⟩
      : ∃ parameters, factoryParameters? injectable.parameters = some parameters :=
    exists_mapM_arguments fun name type member => by
      obtain ⟨path, path?⟩ := (spelled.parameters type member).exists_typePath?
      exact ⟨_, by simp only [factoryParameter?, path?]; rfl⟩
  exact ⟨_, factory?_eq_some_iff.mpr ⟨_, target, _, parameters,
    word?_of_isToken spelled.isToken_factoryName, target?, word?_of_isToken spelled.named, parameters?,
    rfl⟩⟩

end AllSpelled

-----------------------------------------------------------------------------------------
-- The functions that construct
-----------------------------------------------------------------------------------------

/-- Whether a name is no raw identifier. -/
def IsBare (name : String) : Prop :=
  bareName name = name

instance (name : String) : Decidable (IsBare name) :=
  inferInstanceAs (Decidable (_ = _))

/-- An identifier without its mark is still a name, and stays one before more characters of names. What
is left without the mark is a name, and more characters of names keep it one.
-/
theorem isToken_append_bareName {name suffix : String} (token : Identifier.isToken name = true)
    (continues : ∀ char ∈ suffix.toList, Unicode.isContinue char = true)
    : Identifier.isToken (bareName name ++ suffix) = true := by
  have named : Identifier.isName (bareName name).toList = true := by
    unfold bareName
    split
    · rename_i rest raw
      rw [Identifier.isToken, raw] at token
      simp only [Bool.and_eq_true] at token
      rw [String.toList_ofList]
      exact token.1
    · rename_i plain
      unfold Identifier.isToken at token
      split at token
      · rename_i rest raw
        exact absurd raw (plain rest)
      · exact token
  apply Identifier.isToken_of_isName
  rw [String.toList_append]
  exact Identifier.isName_append named continues

/-- Each character of a bare identifier continues names, the first one as well. -/
theorem isContinue_of_isBare {name : String} (token : Identifier.isToken name = true)
    (bare : IsBare name)
    : ∀ char ∈ name.toList, Unicode.isContinue char = true := by
  intro char member
  unfold Identifier.isToken at token
  split at token
  · rename_i rest raw
    rw [IsBare, bareName, raw] at bare
    have shorter := congrArg (fun text => text.toList.length) bare
    simp [raw] at shorter
    omega
  · exact Identifier.isContinue_of_mem token member

/-- The name of a construct function is made of its prefix, its number and the folded name of its
target.
-/
theorem constructorName_toList (index : Nat) (injectable : Injectable)
    : (constructorName index injectable).toList
      = "construct_".toList
        ++ (Nat.toDigits 10 index ++ '_' :: (SnakeCase.ofName injectable.target.name).toList) := by
  simp [constructorName, Nat.toString_eq_repr, Nat.toList_repr]

/-- A number is written in digits. -/
theorem isDigit_of_mem_toDigits {index : Nat} {char : Char} (member : char ∈ Nat.toDigits 10 index)
    : char.isDigit = true :=
  Nat.isDigit_of_mem_toDigits (by decide) (by decide) member

/-- The function that constructs an injectable has a proper name, if its target has a plain one. -/
theorem isToken_constructorName (index : Nat)
    (token : Identifier.isToken injectable.target.name = true)
    (bare : IsBare injectable.target.name)
    : Identifier.isToken (constructorName index injectable) = true := by
  apply Identifier.isToken_of_isName
  rw [constructorName_toList]
  refine Identifier.isName_append (by decide) fun char member => ?_
  rcases List.mem_append.mp member with digit | behind
  · exact isContinue_of_isDigit (isDigit_of_mem_toDigits digit)
  · rcases List.mem_cons.mp behind with rfl | name
    · decide
    · exact SnakeCase.isContinue_of_mem_ofName (isContinue_of_isBare token bare) char name

/-- Functions of different rows have different names. -/
theorem index_eq_of_constructorName_eq {index other : Nat} {injectable others : Injectable}
    (same : constructorName index injectable = constructorName other others)
    : index = other := by
  have chars := congrArg String.toList same
  rw [constructorName_toList, constructorName_toList] at chars
  have behind := List.append_cancel_left chars
  have digits (index : Nat) (rest : List Char)
      : (Nat.toDigits 10 index ++ '_' :: rest).takeWhile Char.isDigit = Nat.toDigits 10 index := by
    rw [List.takeWhile_append_of_pos fun char member => isDigit_of_mem_toDigits member]
    simp [(by decide : Char.isDigit '_' = false)]
  have equal := congrArg (List.takeWhile Char.isDigit) behind
  rw [digits, digits] at equal
  calc
    index
    _ = Nat.ofDigitChars 10 (Nat.toDigits 10 index) 0 :=
      (Nat.ofDigitChars_toDigits (by decide) (by decide)).symm
    _ = Nat.ofDigitChars 10 (Nat.toDigits 10 other) 0 := by rw [equal]
    _ = other := Nat.ofDigitChars_toDigits (by decide) (by decide)

end Emission

end Wiring
