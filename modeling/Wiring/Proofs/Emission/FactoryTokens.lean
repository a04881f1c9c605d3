import Wiring.Emission.Factory
import Wiring.Proofs.Answers
import Wiring.Proofs.Source.PrintedTokens
import Wiring.Source.File

/-! The tokens of a factory. Its code is the printed text of tokens that stand on the second line,
behind the header, so that reading the content of the artifact gives just these tokens back.
-/

namespace Wiring.Emission

open Source

-----------------------------------------------------------------------------------------
-- Texts and the tokens they print
-----------------------------------------------------------------------------------------

/-- A space stands between printed tokens and those behind them, by induction on the former: the
last of them is no punctuation character that another one is joined to.
-/
theorem textOf_append {verbatim : String → Prop} {line : Nat} {tokens others : List Token}
    (spelled : Token.Spelled verbatim line tokens) (some : tokens ≠ []) (more : others ≠ [])
    : Token.textOf (tokens ++ others) = Token.textOf tokens ++ " " ++ Token.textOf others := by
  obtain ⟨next, rest, rfl⟩ := List.exists_cons_of_ne_nil more
  have step {token : Token} {before : List Token} (apart : ∀ char, token ≠ .mark char true)
      (ih
        : before ≠ []
          → Token.textOf (before ++ next :: rest)
            = Token.textOf before ++ " " ++ Token.textOf (next :: rest))
      : Token.textOf (token :: before ++ next :: rest)
        = Token.textOf (token :: before) ++ " " ++ Token.textOf (next :: rest) := by
    cases before with
    | nil =>
        rw [List.singleton_append, Token.textOf, Token.textOf]
        exact apart
    | cons second before =>
        have ih := ih (by simp)
        rw [List.cons_append] at ih ⊢
        rw [List.cons_append, Token.textOf, ih, Token.textOf]
        · simp only [String.append_assoc]
        all_goals exact apart
  induction spelled with
  | nil => contradiction
  | word _ _ ih => exact step (by simp) ih
  | mark _ _ ih => exact step (by simp) ih
  | joint _ _ _ ih =>
      have ih := ih (by simp)
      rw [List.cons_append] at ih ⊢
      rw [List.cons_append, Token.textOf, ih, Token.textOf]
      simp only [String.append_assoc]
  | @lifetime name before _ _ ih =>
      have later
          : Token.textOf (.word name line :: before ++ next :: rest)
            = Token.textOf (.word name line :: before) ++ " " ++ Token.textOf (next :: rest) :=
        step (by simp) ih
      rw [List.cons_append] at later ⊢
      rw [List.cons_append, Token.textOf, later, Token.textOf]
      simp only [String.append_assoc]
  | literal _ _ ih => exact step (by simp) ih
  | group _ _ _ ih => exact step (by simp) ih

/-- Whether the text is how the tokens are printed. They can be read back from it, verbatim texts
aside.
-/
structure Prints (verbatim : String → Prop) (tokens : List Token) (text : String) : Prop where
  spelled : Token.Spelled verbatim 2 tokens
  printed : Token.textOf tokens = text

/-- Whether the text prints the tokens, and there are some. -/
structure PrintsSome (verbatim : String → Prop) (tokens : List Token) (text : String) : Prop
    extends Prints verbatim tokens text where
  some : tokens ≠ []

variable {verbatim : String → Prop} {tokens others : List Token} {text more : String}

/-- No tokens print nothing. -/
theorem Prints.nil : Prints verbatim [] "" :=
  ⟨.nil, rfl⟩

namespace PrintsSome

/-- An identifier prints itself. -/
theorem word (token : Identifier.isToken text = true)
    : PrintsSome verbatim [.word text 2] text :=
  ⟨⟨.word token .nil, rfl⟩, by simp⟩

/-- A plain mark that stands alone prints itself. -/
theorem mark {char : Char} (plain : isPlainMark char = true)
    : PrintsSome verbatim [.mark char false] (String.singleton char) :=
  ⟨⟨.mark plain .nil, rfl⟩, by simp⟩

/-- A group prints what is inside between its brackets. -/
theorem group (delimiter : Delimiter) (inside : Prints verbatim tokens text)
    : PrintsSome verbatim [.group delimiter tokens] (delimiter.enclose text) :=
  ⟨⟨.group inside.spelled .nil, congrArg delimiter.enclose inside.printed⟩, by simp⟩

/-- A punctuation character that the next one is joined to. -/
theorem joint {char next : Char} (plain : isPlainMark char = true)
    (nextPlain : isPlainMark next = true)
    : PrintsSome verbatim [.mark char true, .mark next false] (String.ofList [char, next]) :=
  ⟨⟨.joint plain nextPlain (.mark nextPlain .nil), by simp [Token.textOf, Token.text]⟩, by simp⟩

/-- A filled brace group has blanks on the inside, since only an empty one is printed without. -/
theorem braces (inside : PrintsSome verbatim tokens text) (filled : text ≠ "")
    : PrintsSome verbatim [.group .brace tokens] ("\x7b " ++ text ++ " \x7d") := by
  simpa only [Delimiter.enclose, filled, if_false] using group .brace inside.toPrints

/-- Tokens print one after the other with a blank between, as none of them ends in a mark that joins
the next.
-/
theorem append (first : PrintsSome verbatim tokens text) (second : PrintsSome verbatim others more)
    : PrintsSome verbatim (tokens ++ others) (text ++ " " ++ more) where
  spelled := first.spelled.append second.spelled
  printed := by
    rw [textOf_append first.spelled first.some second.some, first.printed, second.printed]
  some := by simp [first.some]

end PrintsSome

/-- Lists of tokens with a separator between each two of them. -/
def separatedBy (separator : List Token) : List (List Token) → List Token
  | [] => []
  | [single] => single
  | first :: second :: rest => first ++ separator ++ separatedBy separator (second :: rest)

/-- Printing what stands between separators prints the separators between the texts. -/
theorem PrintsSome.separatedBy {separator first : List Token} {mark firstText : String}
    (between : PrintsSome verbatim separator mark) (head : PrintsSome verbatim first firstText)
    {parts : List (List Token)} {texts : List String}
    (each : List.Forall₂ (PrintsSome verbatim) parts texts)
    : PrintsSome verbatim (separatedBy separator (first :: parts))
        (Text.joinWith (" " ++ mark ++ " ") (firstText :: texts)) := by
  induction each generalizing first firstText with
  | nil => exact head
  | cons next _ ih =>
      rw [Emission.separatedBy, Text.joinWith_cons_cons]
      simpa only [String.append_assoc] using (head.append between).append (ih next)

/-- Parts print with the separator between them, and no parts print nothing. -/
theorem Prints.separatedBy {separator : List Token} {mark : String}
    (between : PrintsSome verbatim separator mark) {parts : List (List Token)} {texts : List String}
    (each : List.Forall₂ (PrintsSome verbatim) parts texts)
    : Prints verbatim (separatedBy separator parts) (Text.joinWith (" " ++ mark ++ " ") texts) := by
  cases each with
  | nil => exact .nil
  | cons head rest => exact (between.separatedBy head rest).toPrints

/-- Words with a separator between each two of them. -/
theorem forall₂_printsSome_word {words : List String}
    (tokens : ∀ word ∈ words, Identifier.isToken word = true)
    : List.Forall₂ (PrintsSome verbatim) (words.map fun word => [.word word 2]) words := by
  rw [List.forall₂_map_left_iff, List.forall₂_same]
  exact fun word member => .word (tokens word member)

-----------------------------------------------------------------------------------------
-- Paths
-----------------------------------------------------------------------------------------

/-- What stands between two segments of a path. -/
def pathSeparator : List Token :=
  [.mark ':' true, .mark ':' false]

/-- Two colons print without a blank, for the first one is joined to the second. -/
theorem printsSome_pathSeparator : PrintsSome verbatim pathSeparator "::" :=
  .joint (by decide) (by decide)

/-- The words of a path, in the order of its segments. -/
def wordsOfPath (text : String) : List String :=
  Segments.split (Segments.dropLeading text)

/-- A path of words as tokens. -/
def wordTokens (words : List String) : List Token :=
  separatedBy pathSeparator (words.map fun word => [.word word 2])

/-- The tokens of a path: local ones start at the crate, all others at the root. -/
def pathTokens (text : String) : List Token :=
  if (wordsOfPath text).head? = some "crate" then wordTokens (wordsOfPath text)
  else pathSeparator ++ wordTokens (wordsOfPath text)

/-- A word that can be printed is an identifier, and is printed as it is. -/
theorem word?_eq_some {text word : String} (found : word? text = some word)
    : word = text ∧ Identifier.isToken text = true := by
  unfold word? at found
  split at found
  · rename_i token
    exact ⟨(Option.some.inj found).symm, token⟩
  · contradiction

/-- Texts that have a word each are these words. -/
theorem words_eq_of_mapM_word? {texts words : List String} (found : texts.mapM word? = some words)
    : words = texts ∧ ∀ text ∈ texts, Identifier.isToken text = true := by
  have each := (forall₂_of_mapM_eq_some found).imp fun _ _ => word?_eq_some
  clear found
  induction each with
  | nil => simp
  | cons first _ ih =>
      exact ⟨by rw [first.1, ih.1], List.forall_mem_cons.mpr ⟨first.2, ih.2⟩⟩

/-- A path of identifiers prints with `::` between them. -/
theorem printsSome_wordTokens {words : List String} (some : words ≠ [])
    (tokens : ∀ word ∈ words, Identifier.isToken word = true)
    : PrintsSome verbatim (wordTokens words) (Text.joinWith " :: " words) := by
  obtain ⟨word, rest, rfl⟩ := List.exists_cons_of_ne_nil some
  obtain ⟨first, others⟩ := List.forall_mem_cons.mp tokens
  exact printsSome_pathSeparator.separatedBy (.word first) (forall₂_printsSome_word others)

/-- Splitting a path leaves at least one word. -/
theorem wordsOfPath_ne_nil (text : String)
    : wordsOfPath text ≠ [] := by
  simp [wordsOfPath, Segments.split, Segments.splitChars_ne_nil]

/-- A path prints as itself, rooted or not, if its words are identifiers. The printer and the tokens
ask the same of the first word.
-/
theorem printsSome_pathTokens {printed : String} (found : path? text = some printed)
    : PrintsSome verbatim (pathTokens text) printed := by
  simp only [path?, Option.bind_eq_bind, Option.bind_eq_some_iff] at found
  obtain ⟨words, words?, found⟩ := found
  obtain ⟨rfl, tokens⟩ := words_eq_of_mapM_word? words?
  have plain : PrintsSome verbatim (wordTokens (wordsOfPath text)) _ :=
    printsSome_wordTokens (wordsOfPath_ne_nil text) tokens
  have rooted := printsSome_pathSeparator.append plain
  unfold pathTokens wordsOfPath at *
  split at found <;> obtain rfl := Option.some.inj found
  · rename_i isLocal
    rw [if_pos isLocal]
    exact plain
  · rename_i isForeign
    have joined : "::" ++ " " = ":: " := by decide
    rw [joined] at rooted
    rw [if_neg isForeign]
    exact rooted

-----------------------------------------------------------------------------------------
-- Factories
-----------------------------------------------------------------------------------------

/-- The tokens of one parameter of `create`. -/
def parameterTokens (name : String) (type : TypeName) : List Token :=
  [Token.word name 2, .mark ':' false] ++ pathSeparator ++ wordTokens ["std", "sync", "Arc"]
    ++ [Token.mark '<' false] ++ pathTokens type.qualified ++ [Token.mark '>' false]

/-- What stands in the parentheses behind `create`. -/
def parametersTokens (types : List TypeName) : List Token :=
  separatedBy [.mark ',' false]
    (((argumentNames types.length).zip types).map fun (name, type) => parameterTokens name type)

/-- What `create` is handed on to the constructor. -/
def argumentTokens (count : Nat) : List Token :=
  separatedBy [.mark ',' false] ((argumentNames count).map fun name => [.word name 2])

/-- The traits that a factory derives. -/
def derivedTraits : List Token :=
  separatedBy [.mark ',' false]
    (["Debug", "Clone", "Copy", "Default"].map fun name => [.word name 2])

/-- What stands behind the `#` of a factory. -/
def derivation : Token :=
  .group .bracket [.word "derive" 2, .group .paren derivedTraits]

/-- What stands in the braces behind the header of `create`. -/
def bodyTokens (injectable : Injectable) : List Token :=
  pathTokens injectable.target.qualified ++ pathSeparator
    ++ [Token.word injectable.constructor 2, .group .paren (argumentTokens injectable.arity)]

/-- The function `create`. -/
def createTokens (injectable : Injectable) : List Token :=
  [Token.word "pub" 2, .word "fn" 2, .word "create" 2,
      .group .paren (parametersTokens injectable.parameters), .mark '-' true, .mark '>' false]
    ++ pathTokens injectable.target.qualified ++ [Token.group .brace (bodyTokens injectable)]

/-- The tokens of a factory. -/
def factoryTokens (injectable : Injectable) : List Token :=
  [.mark '#' false, derivation, .word "pub" 2, .word "struct" 2, .word injectable.factoryName 2,
    .mark ';' false, .word "impl" 2, .word injectable.factoryName 2,
    .group .brace (createTokens injectable)]

/-- Numbered arguments are identifiers, since all that follows the letter is digits. -/
theorem isToken_argument (index : Nat)
    : Identifier.isToken ("p" ++ toString index) = true := by
  have digits : ∀ char ∈ (toString index).toList, Unicode.isContinue char = true := by
    intro char member
    rw [Nat.toString_eq_repr, Nat.toList_repr] at member
    exact isContinue_of_isDigit (Nat.isDigit_of_mem_toDigits (by decide) (by decide) member)
  have spelled : ("p" ++ toString index).toList = 'p' :: (toString index).toList := by simp
  have starts : Identifier.startsName 'p' = true := by decide
  unfold Identifier.isToken
  rw [spelled]
  split
  · simp_all
  · simpa only [Identifier.isName, starts, Bool.true_and, List.all_eq_true] using digits

/-- So are the names of the arguments, which are the numbered ones. -/
theorem isToken_of_mem_argumentNames {count : Nat}
    : ∀ name ∈ argumentNames count, Identifier.isToken name = true := by
  intro name member
  obtain ⟨index, _, rfl⟩ := List.mem_map.mp member
  exact isToken_argument index

/-- A comma prints itself. -/
theorem printsSome_comma : PrintsSome verbatim [.mark ',' false] "," :=
  .mark (by decide)

/-- Arguments print with commas between them, by the rule for separators. -/
theorem prints_argumentTokens (count : Nat)
    : Prints verbatim (argumentTokens count) (commaSeparated (argumentNames count)) :=
  .separatedBy printsSome_comma (forall₂_printsSome_word isToken_of_mem_argumentNames)

/-- A parameter prints its name, the shared pointer, and the path of its type, built up token by token;
the two texts have the same characters.
-/
theorem printsSome_parameterTokens {name printed : String} {type : TypeName}
    (token : Identifier.isToken name = true) (found : factoryParameter? name type = some printed)
    : PrintsSome verbatim (parameterTokens name type) printed := by
  obtain ⟨path, path?, rfl⟩ := Option.map_eq_some_iff.mp found
  have shared : PrintsSome verbatim (wordTokens ["std", "sync", "Arc"]) "std :: sync :: Arc" :=
    printsSome_wordTokens (by simp) (by decide)
  have head : PrintsSome verbatim ([Token.word name 2, .mark ':' false] ++ pathSeparator) _ :=
    ((PrintsSome.word token).append (.mark (by decide))).append printsSome_pathSeparator
  have opened := (head.append shared).append (.mark (by decide : isPlainMark '<' = true))
  have filled := opened.append (printsSome_pathTokens path?)
  have whole := filled.append (.mark (by decide : isPlainMark '>' = true))
  have spelled
      : name ++ " : :: std :: sync :: Arc < " ++ path ++ " >"
        = name ++ " " ++ String.singleton ':' ++ " " ++ "::" ++ " " ++ "std :: sync :: Arc" ++ " "
          ++ String.singleton '<' ++ " " ++ path ++ " " ++ String.singleton '>' := by
    apply String.toList_inj.mp
    simp
  rw [spelled]
  exact whole

/-- What is printed for each argument, under its name. -/
theorem forall₂_arguments {types : List TypeName} {print? : String × TypeName → Option String}
    {printed : List String}
    (found : ((argumentNames types.length).zip types).mapM print? = some printed)
    : List.Forall₂
        (fun argument text => Identifier.isToken argument.1 = true ∧ print? argument = some text)
        ((argumentNames types.length).zip types) printed := by
  refine (List.forall₂_and_left _ _).mpr ⟨?_, forall₂_of_mapM_eq_some found⟩
  exact fun argument member => isToken_of_mem_argumentNames _ (List.of_mem_zip member).1

/-- Parameters print with commas between them, each by its own lemma. -/
theorem prints_parametersTokens {types : List TypeName} {printed : List String}
    (found : factoryParameters? types = some printed)
    : Prints verbatim (parametersTokens types) (commaSeparated printed) := by
  refine .separatedBy printsSome_comma ?_
  rw [List.forall₂_map_left_iff]
  exact (forall₂_arguments found).imp fun _ _ ⟨token, print⟩ =>
    printsSome_parameterTokens token print

/-- The body of a factory prints the call of the constructor on the arguments, built up token by token.
-/
theorem printsSome_bodyTokens {injectable : Injectable} {target constructor : String}
    (target? : typePath? injectable.target = some target)
    (constructor? : word? injectable.constructor = some constructor)
    : PrintsSome verbatim (bodyTokens injectable)
        (target ++ " :: " ++ constructor ++ " ("
          ++ commaSeparated (argumentNames injectable.arity) ++ ")") := by
  obtain ⟨rfl, token⟩ := word?_eq_some constructor?
  have called : PrintsSome verbatim _ _ :=
    (printsSome_pathTokens target?).append printsSome_pathSeparator
  have whole :=
    called.append ((PrintsSome.word token).append
      (.group .paren (prints_argumentTokens injectable.arity)))
  have spelled
      : target ++ " :: " ++ injectable.constructor ++ " ("
          ++ commaSeparated (argumentNames injectable.arity) ++ ")"
        = target ++ " " ++ "::" ++ " " ++ (injectable.constructor ++ " "
          ++ Delimiter.paren.enclose (commaSeparated (argumentNames injectable.arity))) := by
    apply String.toList_inj.mp
    simp [Delimiter.enclose]
  rw [spelled]
  exact whole

/-- The function of a factory prints its parameters, its target and its body, built up from them. -/
theorem printsSome_createTokens {injectable : Injectable} {target constructor : String}
    {parameters : List String} (target? : typePath? injectable.target = some target)
    (constructor? : word? injectable.constructor = some constructor)
    (parameters? : factoryParameters? injectable.parameters = some parameters)
    : PrintsSome verbatim (createTokens injectable)
        ("pub fn create (" ++ commaSeparated parameters ++ ") -> " ++ target ++ " \x7b " ++ target
          ++ " :: " ++ constructor ++ " (" ++ commaSeparated (argumentNames injectable.arity)
          ++ ") \x7d") := by
  have body : PrintsSome verbatim _ _ :=
    (printsSome_bodyTokens target? constructor?).braces (by simp)
  have word (text : String) (token : Identifier.isToken text = true)
      : PrintsSome verbatim [.word text 2] text :=
    .word token
  have head :=
    (((word "pub" (by decide)).append (word "fn" (by decide))).append
      (word "create" (by decide))).append (.group .paren (prints_parametersTokens parameters?))
  have arrow : PrintsSome verbatim [.mark '-' true, .mark '>' false] "->" :=
    .joint (by decide) (by decide)
  have whole := ((head.append arrow).append (printsSome_pathTokens target?)).append body
  have spelled
      : "pub fn create (" ++ commaSeparated parameters ++ ") -> " ++ target ++ " \x7b " ++ target
          ++ " :: " ++ constructor ++ " (" ++ commaSeparated (argumentNames injectable.arity)
          ++ ") \x7d"
        = "pub" ++ " " ++ "fn" ++ " " ++ "create" ++ " "
          ++ Delimiter.paren.enclose (commaSeparated parameters) ++ " " ++ "->" ++ " " ++ target
          ++ " " ++ ("\x7b " ++ (target ++ " :: " ++ constructor ++ " ("
          ++ commaSeparated (argumentNames injectable.arity) ++ ")") ++ " \x7d") := by
    apply String.toList_inj.mp
    simp [Delimiter.enclose]
  rw [spelled]
  exact whole

/-- The code of a factory, cut at the ends of its tokens. Literal texts are cut where a token ends. -/
theorem factoryCode_eq (name target constructor : String) (parameters arguments : List String)
    : factoryCode name target constructor parameters arguments
      = String.singleton '#' ++ " " ++ "[derive (Debug , Clone , Copy , Default)]" ++ " " ++ "pub"
        ++ " " ++ "struct" ++ " " ++ name ++ " " ++ String.singleton ';' ++ " " ++ "impl" ++ " "
        ++ name ++ " "
        ++ ("\x7b " ++ ("pub fn create (" ++ commaSeparated parameters ++ ") -> " ++ target
          ++ " \x7b " ++ target ++ " :: " ++ constructor ++ " (" ++ commaSeparated arguments
          ++ ") \x7d") ++ " \x7d") := by
  have opening
      : "# [derive (Debug , Clone , Copy , Default)] pub struct "
        = String.singleton '#' ++ " " ++ "[derive (Debug , Clone , Copy , Default)]" ++ " " ++ "pub"
          ++ " " ++ "struct" ++ " " := by
    decide
  have middle : " ; impl " = " " ++ String.singleton ';' ++ " " ++ "impl" ++ " " := by decide
  have inner : " \x7b pub fn create (" = " " ++ ("\x7b " ++ "pub fn create (") := by decide
  have closing : ") \x7d \x7d" = ") \x7d" ++ " \x7d" := by decide
  unfold factoryCode
  rw [opening, middle, inner, closing]
  simp only [String.append_assoc]

/-- The tokens of a factory print its code, from the struct down to the function. The parts are those
of `factoryCode_eq`.
-/
theorem printsSome_factoryTokens {injectable : Injectable} {name target constructor : String}
    {parameters : List String} (name? : word? injectable.factoryName = some name)
    (target? : typePath? injectable.target = some target)
    (constructor? : word? injectable.constructor = some constructor)
    (parameters? : factoryParameters? injectable.parameters = some parameters)
    : PrintsSome verbatim (factoryTokens injectable)
        (factoryCode name target constructor parameters (argumentNames injectable.arity)) := by
  obtain ⟨rfl, token⟩ := word?_eq_some name?
  have block : PrintsSome verbatim _ _ :=
    (printsSome_createTokens target? constructor? parameters?).braces (by simp)
  have word (text : String) (token : Identifier.isToken text = true)
      : PrintsSome verbatim [.word text 2] text :=
    .word token
  have derived : PrintsSome verbatim [derivation] "[derive (Debug , Clone , Copy , Default)]" := by
    have traits
        : ∀ name ∈ ["Debug", "Clone", "Copy", "Default"], Identifier.isToken name = true := by
      decide
    have list : Prints verbatim _ _ :=
      .separatedBy printsSome_comma (forall₂_printsSome_word traits)
    have listed := (word "derive" (by decide)).append (.group .paren list)
    exact .group .bracket listed.toPrints
  have declared :=
    (((((PrintsSome.mark (by decide : isPlainMark '#' = true)).append derived).append
      (word "pub" (by decide))).append (word "struct" (by decide))).append (.word token)).append
      (.mark (by decide : isPlainMark ';' = true))
  have whole := ((declared.append (word "impl" (by decide))).append (.word token)).append block
  rw [factoryCode_eq]
  exact whole

-----------------------------------------------------------------------------------------
-- Reading
-----------------------------------------------------------------------------------------

/-- The comment in front of generated code, without its slashes and the end of its line. -/
def headerComment : List Char :=
  " @generated by tinydi-codegen. Do not edit.".toList

/-- A rendered text is the comment of the header and the code on a line of its own. -/
theorem toList_render (code : String)
    : (render code).toList = '/' :: '/' :: (headerComment ++ '\n' :: (code.toList ++ ['\n'])) := by
  have opened : header.toList = '/' :: '/' :: (headerComment ++ ['\n']) := by decide
  simp [render, opened]

/-- Reading a generated file gives the tokens that its code prints. -/
theorem ofText?_render {code : String} (printed : PrintsSome (fun _ => False) tokens code)
    : Token.ofText? (render code) = some tokens := by
  have oneLine : ∀ char ∈ headerComment, char ≠ '\n' ∧ char ≠ '\r' :=
    forall_mem_of_all (by decide)
  have plain : ∀ char ∈ headerComment.head?, char ≠ '/' ∧ char ≠ '!' := by
    rintro char ⟨⟩
    decide
  have read := printed.spelled.ofChars?_eq oneLine plain
  rw [printed.printed, ← toList_render] at read
  exact read

/-- A factory is generated when its name, its target, the constructor and the parameters are spelled,
by the steps of its definition.
-/
theorem factory?_eq_some_iff {injectable : Injectable} {artifact : Artifact}
    : factory? injectable = some artifact
      ↔ ∃ name target constructor parameters,
          word? injectable.factoryName = some name
          ∧ typePath? injectable.target = some target
          ∧ word? injectable.constructor = some constructor
          ∧ factoryParameters? injectable.parameters = some parameters
          ∧ {
              home := injectable.target.home
              name := injectable.factoryName
              kind := .factory
              content :=
                render
                  (factoryCode name target constructor parameters (argumentNames injectable.arity))
              origins := ⟨false, [injectable.location.file]⟩
            }
            = artifact := by
  simp only [factory?, Option.bind_eq_bind, Option.bind_eq_some_iff, Option.some.injEq,
    exists_and_left]

/-- A factory's file is read as the factory's tokens, since its comment is skipped and what is printed
is read back.
-/
theorem ofText?_content {injectable : Injectable} {artifact : Artifact}
    (made : factory? injectable = some artifact)
    : Token.ofText? artifact.content = some (factoryTokens injectable) := by
  obtain ⟨name, target, constructor, parameters, name?, target?, constructor?, parameters?, rfl⟩ :=
    factory?_eq_some_iff.mp made
  exact ofText?_render (printsSome_factoryTokens name? target? constructor? parameters?)

/-- Reading the content of a factory gives the items of its tokens. -/
theorem ofText?_factory {injectable : Injectable} {artifact : Artifact}
    (made : factory? injectable = some artifact)
    : Item.ofText? artifact.content = Grammar.items? (factoryTokens injectable) := by
  have read := ofText?_content made
  obtain ⟨_, _, _, _, _, _, _, _, rfl⟩ := factory?_eq_some_iff.mp made
  have unmarked (rest : List Char)
      : dropSystemLine (Lexer.dropByteOrderMark ('/' :: rest)) = '/' :: rest :=
    rfl
  rw [Item.ofText?, toList_render, unmarked, ← toList_render]
  rw [Token.ofText?] at read
  rw [read]
  rfl

end Wiring.Emission
