import Wiring.Proofs.Emission.SpelledNames

/-! The tokens of the component: what its table says, row by row, and what each of its functions
resolves and calls, told apart from how that is printed. The path of the runtime is taken from the
settings as it stands, so that it may print as one text or as tokens of its own.
-/

namespace Wiring.Emission

open Source

-----------------------------------------------------------------------------------------
-- What a component says
-----------------------------------------------------------------------------------------

/-- A function of a component: the names it binds to resolved types, in order, and the function
`create` that it calls then.
-/
structure Construction where
  name : String
  resolved : List (String × TypeName)
  /-- The path of the type that has the called function. -/
  callee : String
  arguments : List String

/-- A component: the rows of its table, each with the function it refers to, and its functions. -/
structure Table where
  entries : List (TypeName × String)
  functions : List Construction

/-- The function for the injectable at a row of the table. -/
def Construction.ofInjectable (injectable : Injectable) (index : Nat) : Construction where
  name := constructorName index injectable
  resolved := (argumentNames injectable.arity).zip injectable.parameters
  callee := Segments.within injectable.target.home injectable.factoryName
  arguments := argumentNames injectable.arity

/-- The table of injectables that stand in the order of their rows. -/
def Table.ofInjectables (injectables : List Injectable) : Table where
  entries :=
    injectables.zipIdx.map fun (injectable, index) =>
      (injectable.target, constructorName index injectable)
  functions :=
    injectables.zipIdx.map fun (injectable, index) => .ofInjectable injectable index

-----------------------------------------------------------------------------------------
-- Tokens
-----------------------------------------------------------------------------------------

/-- Something in the module that a path leads to. -/
def memberTokens (path : List Token) (words : List String) : List Token :=
  path ++ pathSeparator ++ wordTokens words

/-- Tokens between angle brackets. -/
def angled (tokens : List Token) : List Token :=
  [Token.mark '<' false] ++ tokens ++ [Token.mark '>' false]

/-- The resolver over the table of a component. -/
def resolverTokens (runtime : List Token) (dispatch : String) : List Token :=
  memberTokens runtime ["Resolver"] ++ angled [.word dispatch 2]

/-- A row of the table: the key of the type, and the function that constructs it. -/
def entryTokens (runtime : List Token) (entry : TypeName × String) : List Token :=
  memberTokens runtime ["Entry", "new"]
    ++ [Token.group .paren
      (memberTokens runtime ["TypeKey", "of"] ++ pathSeparator
        ++ angled (pathTokens entry.1.qualified) ++ [Token.mark ',' false, .word entry.2 2])]

/-- The statement that resolves one parameter. -/
def resolutionTokens (parameter : String × TypeName) : List Token :=
  [Token.word "let" 2, .word parameter.1 2, .mark '=' false, .word "resolver" 2, .mark '.' false,
      .word "resolve_as" 2]
    ++ pathSeparator ++ angled (pathTokens parameter.2.qualified)
    ++ [Token.group .paren [], .mark '?' false, .mark ';' false]

namespace Construction

/-- A function that resolves nothing names its resolver so. -/
def resolver (construction : Construction) : String :=
  if construction.resolved.isEmpty then "_resolver" else "resolver"

/-- The instance that the called function makes. -/
def madeTokens (construction : Construction) : List Token :=
  pathSeparator ++ wordTokens ["std", "sync", "Arc", "new"]
    ++ [Token.group .paren
      (pathTokens construction.callee ++ pathSeparator
        ++ [Token.word "create" 2,
          .group .paren
            (separatedBy [.mark ',' false]
              (construction.arguments.map fun name => [.word name 2]))])]

/-- A construct function resolves what it needs, and wraps what is made of it. -/
def bodyTokens (construction : Construction) : List Token :=
  construction.resolved.flatMap resolutionTokens
    ++ [Token.word "Ok" 2, .group .paren construction.madeTokens]

/-- The whole construct function. -/
def tokens (runtime : List Token) (dispatch : String) (construction : Construction)
    : List Token :=
  [Token.word "fn" 2, .word construction.name 2,
      .group .paren
        ([Token.word construction.resolver 2, .mark ':' false, .mark '&' false]
          ++ resolverTokens runtime dispatch),
      .mark '-' true, .mark '>' false]
    ++ memberTokens runtime ["Result"] ++ angled (memberTokens runtime ["Instance"])
    ++ [Token.group .brace construction.bodyTokens]

end Construction

namespace Table

/-- The rows of the table. -/
def constantTokens (runtime : List Token) (table : Table) : List Token :=
  [.word "const" 2, .word "ENTRIES" 2, .mark ':' false, .mark '&' false, .mark '\x27' true,
    .word "static" 2,
    .group .bracket (memberTokens runtime ["Entry"] ++ angled [.word "Self" 2]), .mark '=' false,
    .mark '&' false,
    .group .bracket (separatedBy [.mark ',' false] (table.entries.map (entryTokens runtime))),
    .mark ';' false]

/-- The tokens of a component. -/
def tokens (runtime : List Token) (component dispatch : String) (table : Table) : List Token :=
  [Token.word "pub" 2, .word "enum" 2, .word dispatch 2, .group .brace [], .word "impl" 2]
    ++ memberTokens runtime ["Dispatch"]
    ++ [Token.word "for" 2, .word dispatch 2, .group .brace (table.constantTokens runtime),
      .word "pub" 2, .word "type" 2, .word component 2, .mark '=' false]
    ++ resolverTokens runtime dispatch ++ [Token.mark ';' false]
    ++ table.functions.flatMap (Construction.tokens runtime dispatch)

end Table

-----------------------------------------------------------------------------------------
-- Printing
-----------------------------------------------------------------------------------------

variable {verbatim : String → Prop} {runtime : List Token} {path : String}

/-- What is printed may be written otherwise, if its characters are the same. -/
theorem PrintsSome.cast {tokens : List Token} {text other : String}
    (printed : PrintsSome verbatim tokens text) (same : text.toList = other.toList)
    : PrintsSome verbatim tokens other :=
  String.toList_inj.mp same ▸ printed

/-- An identifier in front prints in front, with a blank. -/
theorem PrintsSome.consWord {word text : String} {tokens : List Token}
    (token : Identifier.isToken word = true) (rest : PrintsSome verbatim tokens text)
    : PrintsSome verbatim (.word word 2 :: tokens) (word ++ " " ++ text) :=
  (PrintsSome.word token).append rest

/-- So does a mark that stands alone. -/
theorem PrintsSome.consMark {char : Char} {text : String} {tokens : List Token}
    (plain : isPlainMark char = true) (rest : PrintsSome verbatim tokens text)
    : PrintsSome verbatim (.mark char false :: tokens) (String.singleton char ++ " " ++ text) :=
  (PrintsSome.mark plain).append rest

/-- A text that is given verbatim. -/
theorem printsSome_literal (text : String)
    : PrintsSome (· = text) [.literal text] text :=
  ⟨⟨.literal rfl .nil, rfl⟩, by simp⟩

/-- The static lifetime prints as one word. -/
theorem PrintsSome.static
    : PrintsSome verbatim [.mark '\x27' true, .word "static" 2] "\x27static" :=
  ⟨⟨.lifetime (by decide) .nil, by decide⟩, by simp⟩

/-- Further tokens, each part of them behind a space. -/
theorem PrintsSome.followed {tokens : List Token} {text : String}
    (head : PrintsSome verbatim tokens text) {parts : List (List Token)} {texts : List String}
    (each : List.Forall₂ (PrintsSome verbatim) parts texts)
    : PrintsSome verbatim (tokens ++ parts.flatten)
        (text ++ String.join (texts.map fun text => " " ++ text)) := by
  induction each generalizing tokens text with
  | nil => simpa using head
  | cons next _ ih =>
      rw [List.flatten_cons, ← List.append_assoc]
      exact (ih (head.append next)).cast (by simp [String.toList_join])

/-- Tokens behind others, of which each part ends in a space. -/
theorem PrintsSome.led {tokens : List Token} {text : String}
    (last : PrintsSome verbatim tokens text) {parts : List (List Token)} {texts : List String}
    (each : List.Forall₂ (fun part whole => ∃ text, PrintsSome verbatim part text ∧ whole = text ++ " ")
      parts texts)
    : PrintsSome verbatim (parts.flatten ++ tokens) (String.join texts ++ text) := by
  induction each with
  | nil => simpa using last
  | cons next _ ih =>
      obtain ⟨first, printed, rfl⟩ := next
      have joined := printed.append ih
      rw [List.flatten_cons, List.append_assoc]
      exact joined.cast (by simp [String.toList_join])

/-- A member of the runtime prints behind the runtime's path. -/
theorem printsSome_memberTokens (known : PrintsSome verbatim runtime path) {words : List String}
    (some : words ≠ []) (tokens : ∀ word ∈ words, Identifier.isToken word = true)
    : PrintsSome verbatim (memberTokens runtime words)
        (path ++ " :: " ++ Text.joinWith " :: " words) := by
  have whole :=
    (known.append printsSome_pathSeparator).append (printsSome_wordTokens some tokens)
  exact whole.cast (by simp)

/-- Angle brackets print with blanks on both sides, for they are plain marks. -/
theorem printsSome_angled {tokens : List Token} {text : String}
    (inside : PrintsSome verbatim tokens text)
    : PrintsSome verbatim (angled tokens) ("< " ++ text ++ " >") := by
  have opening : PrintsSome verbatim [.mark '<' false] _ := .mark (by decide)
  have whole := (opening.append inside).append (.mark (by decide : isPlainMark '>' = true))
  exact whole.cast (by simp)

/-- The type of a resolver prints with the name of the trait that it serves. -/
theorem printsSome_resolverTokens {dispatch : String} (known : PrintsSome verbatim runtime path)
    (token : Identifier.isToken dispatch = true)
    : PrintsSome verbatim (resolverTokens runtime dispatch)
        (path ++ " :: Resolver < " ++ dispatch ++ " >") := by
  have resolver := printsSome_memberTokens known (by simp) (by decide : ∀ word ∈ ["Resolver"], _)
  have whole := resolver.append (printsSome_angled (.word token))
  exact whole.cast (by simp)

/-- The row of an injectable whose names are identifiers. -/
theorem printsSome_entryTokens {type : TypeName} {function target : String}
    (known : PrintsSome verbatim runtime path) (target? : typePath? type = some target)
    (token : Identifier.isToken function = true)
    : PrintsSome verbatim (entryTokens runtime (type, function))
        (path ++ " :: Entry :: new (" ++ path ++ " :: TypeKey :: of :: < " ++ target ++ " > , "
          ++ function ++ ")") := by
  have key := printsSome_memberTokens known (by simp) (by decide : ∀ word ∈ ["TypeKey", "of"], _)
  have comma : PrintsSome verbatim [.mark ',' false] _ := printsSome_comma
  have inside :=
    ((key.append printsSome_pathSeparator).append
      (printsSome_angled (printsSome_pathTokens target?))).append (comma.append (.word token))
  have entry := printsSome_memberTokens known (by simp) (by decide : ∀ word ∈ ["Entry", "new"], _)
  have whole := entry.append (.group .paren inside.toPrints)
  exact whole.cast (by simp [Delimiter.enclose, Text.joinWith])

/-- A line that resolves a parameter prints as the printer spells it, with the blank behind it left to
the next line.
-/
theorem printsSome_resolutionTokens {name printed : String} {type : TypeName}
    (token : Identifier.isToken name = true) (found : resolution? name type = some printed)
    : ∃ text,
        PrintsSome verbatim (resolutionTokens (name, type)) text ∧ printed = text ++ " " := by
  obtain ⟨path, path?, rfl⟩ := Option.map_eq_some_iff.mp found
  have head
      : PrintsSome verbatim
          [.word "let" 2, .word name 2, .mark '=' false, .word "resolver" 2, .mark '.' false,
            .word "resolve_as" 2] _ :=
    .consWord (by decide) <| .consWord token <| .consMark (by decide) <|
      .consWord (by decide) <| .consMark (by decide) <| .word (by decide)
  have typed :=
    (head.append printsSome_pathSeparator).append (printsSome_angled (printsSome_pathTokens path?))
  have ending : PrintsSome verbatim [.group .paren [], .mark '?' false, .mark ';' false] _ :=
    (PrintsSome.group .paren .nil).append <| .consMark (by decide) <| .mark (by decide)
  exact ⟨_, typed.append ending, String.toList_inj.mp (by simp [Delimiter.enclose])⟩

-----------------------------------------------------------------------------------------
-- Functions
-----------------------------------------------------------------------------------------

variable {injectable : Injectable} {index : Nat}

/-- What a construct function makes prints as the call of the factory on the resolved arguments. -/
theorem printsSome_madeTokens {factory : String}
    (factory? : beside? injectable.target injectable.factoryName = some factory)
    : PrintsSome verbatim (Construction.ofInjectable injectable index).madeTokens
        (":: std :: sync :: Arc :: new (" ++ factory ++ " :: create ("
          ++ commaSeparated (argumentNames injectable.arity) ++ "))") := by
  have maker : PrintsSome verbatim (pathSeparator ++ wordTokens ["std", "sync", "Arc", "new"]) _ :=
    printsSome_pathSeparator.append (printsSome_wordTokens (by simp) (by decide))
  have arguments : PrintsSome verbatim [.group .paren (argumentTokens injectable.arity)] _ :=
    .group .paren (prints_argumentTokens injectable.arity)
  have called :=
    ((printsSome_pathTokens factory?).append printsSome_pathSeparator).append
      (.consWord (by decide : Identifier.isToken "create" = true) arguments)
  have whole := maker.append (.group .paren called.toPrints)
  exact whole.cast (by simp [Delimiter.enclose, Text.joinWith])

/-- The body prints the resolutions in order and what is made, by induction on the resolutions. -/
theorem printsSome_construction_bodyTokens {factory : String} {resolutions : List String}
    (factory? : beside? injectable.target injectable.factoryName = some factory)
    (resolutions? : resolutions? injectable.parameters = some resolutions)
    : PrintsSome verbatim (Construction.ofInjectable injectable index).bodyTokens
        (String.join resolutions ++ "Ok (:: std :: sync :: Arc :: new (" ++ factory
          ++ " :: create (" ++ commaSeparated (argumentNames injectable.arity) ++ ")))") := by
  have made
      : PrintsSome verbatim
          [.word "Ok" 2,
            .group .paren (Construction.ofInjectable injectable index).madeTokens] _ :=
    .consWord (by decide) (.group .paren (printsSome_madeTokens factory?).toPrints)
  have each
      : List.Forall₂ (fun part whole => ∃ text, PrintsSome verbatim part text ∧ whole = text ++ " ")
          (((argumentNames injectable.arity).zip injectable.parameters).map resolutionTokens)
          resolutions :=
    List.forall₂_map_left_iff.mpr <|
      (forall₂_arguments resolutions?).imp fun _ _ ⟨token, found⟩ =>
        printsSome_resolutionTokens token found
  exact (made.led each).cast (by simp [Delimiter.enclose])

/-- A construct function resolves nothing exactly if there are no parameters. -/
theorem isEmpty_resolved
    : (Construction.ofInjectable injectable index).resolved.isEmpty
      = injectable.parameters.isEmpty := by
  cases parameters : injectable.parameters <;>
    simp [Construction.ofInjectable, Injectable.arity, argumentNames, parameters, List.range_succ]

/-- The function that a row refers to, and the row, built up from its parts in the order in which they
are printed.
-/
theorem printsSome_row {dispatch : String} {row : ComponentRow}
    (known : PrintsSome verbatim runtime path) (token : Identifier.isToken dispatch = true)
    (found : row? path dispatch index injectable = some row)
    : PrintsSome verbatim
          (entryTokens runtime (injectable.target, constructorName index injectable)) row.entry
      ∧ PrintsSome verbatim
          ((Construction.ofInjectable injectable index).tokens runtime dispatch) row.function := by
  simp only [row?, Option.bind_eq_bind, Option.bind_eq_some_iff, Option.some.injEq] at found
  obtain ⟨function, function?, target, target?, factory, factory?, resolutions, resolutions?, rfl⟩ :=
    found
  obtain ⟨rfl, named⟩ := word?_eq_some function?
  refine ⟨printsSome_entryTokens known target? named, ?_⟩
  have resolver
      : Identifier.isToken (Construction.ofInjectable injectable index).resolver = true := by
    unfold Construction.resolver
    split <;> decide
  have body : PrintsSome verbatim (Construction.ofInjectable injectable index).bodyTokens _ :=
    printsSome_construction_bodyTokens factory? resolutions?
  have parameter
      : PrintsSome verbatim
          ([Token.word (Construction.ofInjectable injectable index).resolver 2, .mark ':' false,
              .mark '&' false]
            ++ resolverTokens runtime dispatch) _ :=
    .consWord resolver <| .consMark (by decide) <| .consMark (by decide) <|
      printsSome_resolverTokens known token
  have head
      : PrintsSome verbatim
          [.word "fn" 2, .word (constructorName index injectable) 2,
            .group .paren
              ([Token.word (Construction.ofInjectable injectable index).resolver 2,
                  .mark ':' false, .mark '&' false]
                ++ resolverTokens runtime dispatch),
            .mark '-' true, .mark '>' false] _ :=
    .consWord (by decide) <| .consWord named <|
      (PrintsSome.group .paren parameter.toPrints).append (.joint (by decide) (by decide))
  have result := printsSome_memberTokens known (by simp) (by decide : ∀ word ∈ ["Result"], _)
  have instances := printsSome_memberTokens known (by simp) (by decide : ∀ word ∈ ["Instance"], _)
  have whole :=
    ((head.append result).append (printsSome_angled instances)).append (body.braces (by simp))
  refine whole.cast ?_
  simp [Delimiter.enclose, Construction.resolver, isEmpty_resolved]

-----------------------------------------------------------------------------------------
-- Components
-----------------------------------------------------------------------------------------

variable {component dispatch : String} {injectables : List Injectable} {rows : List ComponentRow}

/-- Rows print pairwise, the entries and the functions alike, since each row does. -/
theorem forall₂_rows (known : PrintsSome verbatim runtime path)
    (token : Identifier.isToken dispatch = true)
    (found : rows? path dispatch injectables = some rows)
    : List.Forall₂ (PrintsSome verbatim)
          ((Table.ofInjectables injectables).entries.map (entryTokens runtime))
          (rows.map ComponentRow.entry)
      ∧ List.Forall₂ (PrintsSome verbatim)
          ((Table.ofInjectables injectables).functions.map (Construction.tokens runtime dispatch))
          (rows.map ComponentRow.function) := by
  have each := (forall₂_of_mapM_eq_some found).imp fun _ _ => printsSome_row known token
  simp only [Table.ofInjectables, List.forall₂_map_left_iff, List.forall₂_map_right_iff]
  exact ⟨each.imp fun _ _ => And.left, each.imp fun _ _ => And.right⟩

/-- The table prints as a constant that holds the entries with commas between them, built up from its
type and its list.
-/
theorem printsSome_constantTokens (known : PrintsSome verbatim runtime path)
    (token : Identifier.isToken dispatch = true)
    (found : rows? path dispatch injectables = some rows)
    : PrintsSome verbatim ((Table.ofInjectables injectables).constantTokens runtime)
        ("const ENTRIES : & 'static [" ++ path ++ " :: Entry < Self >] = & ["
          ++ commaSeparated (rows.map ComponentRow.entry) ++ "] ;") := by
  have self : PrintsSome verbatim [.word "Self" 2] _ := .word (by decide)
  have entry := printsSome_memberTokens known (by simp) (by decide : ∀ word ∈ ["Entry"], _)
  have type := PrintsSome.group .bracket (entry.append (printsSome_angled self)).toPrints
  have list := Prints.separatedBy printsSome_comma (forall₂_rows known token found).1
  have value : PrintsSome verbatim _ _ :=
    .consMark (by decide : isPlainMark '=' = true) <|
      .consMark (by decide : isPlainMark '&' = true) <|
        (PrintsSome.group .bracket list).append (.mark (by decide : isPlainMark ';' = true))
  have whole : PrintsSome verbatim ((Table.ofInjectables injectables).constantTokens runtime) _ :=
    .consWord (by decide) <| .consWord (by decide) <| .consMark (by decide) <|
      .consMark (by decide) <| PrintsSome.static.append (type.append value)
  exact whole.cast (by simp [Delimiter.enclose, commaSeparated])

/-- The code of a component, cut at the ends of its parts. Literal texts are cut where a token ends, so
that the parts can be printed one by one.
-/
theorem componentCode_eq (path component dispatch : String) (rows : List ComponentRow)
    : componentCode path component dispatch rows
      = "pub enum " ++ dispatch ++ " \x7b \x7d impl" ++ " " ++ (path ++ " :: " ++ "Dispatch") ++ " "
        ++ ("for " ++ dispatch ++ " \x7b "
          ++ ("const ENTRIES : & 'static [" ++ path ++ " :: Entry < Self >] = & ["
            ++ commaSeparated (rows.map ComponentRow.entry) ++ "] ;")
          ++ " \x7d pub type " ++ component ++ " =")
        ++ " " ++ (path ++ " :: Resolver < " ++ dispatch ++ " >") ++ " " ++ String.singleton ';'
        ++ String.join ((rows.map ComponentRow.function).map fun text => " " ++ text) := by
  have opening : " \x7b \x7d impl " = " \x7b \x7d impl" ++ " " := by decide
  have implemented : " :: Dispatch for " = " :: " ++ "Dispatch" ++ " " ++ "for " := by decide
  have filled
      : " \x7b const ENTRIES : & 'static [" = " \x7b " ++ "const ENTRIES : & 'static [" := by
    decide
  have closed : "] ; \x7d pub type " = "] ;" ++ " \x7d pub type " := by decide
  have defined : " = " = " =" ++ " " := by decide
  have closing : " > ;" = " >" ++ " " ++ String.singleton ';' := by decide
  unfold componentCode
  rw [opening, implemented, filled, closed, defined, closing, List.map_map]
  simp only [String.append_assoc]
  rfl

/-- The implementation of the component prints around its constant, with the type behind it. -/
theorem printsSome_implementation {constant : List Token} {text : String}
    (named : Identifier.isToken component = true) (token : Identifier.isToken dispatch = true)
    (inside : PrintsSome verbatim constant text) (filled : text ≠ "")
    : PrintsSome verbatim
        [.word "for" 2, .word dispatch 2, .group .brace constant, .word "pub" 2, .word "type" 2,
          .word component 2, .mark '=' false]
        ("for " ++ dispatch ++ " \x7b " ++ text ++ " \x7d pub type " ++ component ++ " =") := by
  have whole : PrintsSome verbatim _ _ :=
    .consWord (by decide : Identifier.isToken "for" = true) <| .consWord token <|
      (inside.braces filled).append <| .consWord (by decide : Identifier.isToken "pub" = true) <|
      .consWord (by decide : Identifier.isToken "type" = true) <| .consWord named <|
      .mark (by decide : isPlainMark '=' = true)
  exact whole.cast (by simp)

/-- The code of a component prints the tokens of its table. The parts are those of `componentCode_eq`.
-/
theorem printsSome_tableTokens (known : PrintsSome verbatim runtime path)
    (named : Identifier.isToken component = true) (token : Identifier.isToken dispatch = true)
    (found : rows? path dispatch injectables = some rows)
    : PrintsSome verbatim ((Table.ofInjectables injectables).tokens runtime component dispatch)
        (componentCode path component dispatch rows) := by
  have dispatches := printsSome_memberTokens known (by simp) (by decide : ∀ word ∈ ["Dispatch"], _)
  have closed
      : PrintsSome verbatim
          [.word "pub" 2, .word "enum" 2, .word dispatch 2, .group .brace [], .word "impl" 2]
          ("pub enum " ++ dispatch ++ " \x7b \x7d impl") := by
    have whole : PrintsSome verbatim _ _ :=
      .consWord (by decide : Identifier.isToken "pub" = true) <|
        .consWord (by decide : Identifier.isToken "enum" = true) <| .consWord token <|
        (PrintsSome.group .brace .nil).append (.word (by decide : Identifier.isToken "impl" = true))
    exact whole.cast (by simp [Delimiter.enclose])
  have implemented :=
    printsSome_implementation named token (printsSome_constantTokens known token found) (by simp)
  have table :=
    (((closed.append dispatches).append implemented).append
      (printsSome_resolverTokens known token)).append (.mark (by decide : isPlainMark ';' = true))
  rw [componentCode_eq]
  exact table.followed (forall₂_rows known token found).2

end Wiring.Emission
