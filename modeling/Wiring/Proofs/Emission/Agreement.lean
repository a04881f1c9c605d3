import Wiring.Proofs.Emission.ComponentTokens
import Wiring.Proofs.OrderedInsertion
import Wiring.Proofs.Source.LexedWords

/-! The component and the factories agree. Each function of the component resolves what the factory of
its row takes, in the same order, and calls that factory where it stands; and the factory hands all of
it on to the constructor. Both are stated of what the two generated texts read back as.
-/

namespace Wiring.Emission

open Source

-----------------------------------------------------------------------------------------
-- What the generated texts say
-----------------------------------------------------------------------------------------

/-- A factory: its name, and what its `create` takes and hands on to the constructor of its target. -/
structure Creation where
  factory : String
  parameters : List (String × TypeName)
  target : TypeName
  constructor : String
  arguments : List String

namespace Creation

/-- What the factory of a descriptor creates, and from what. -/
def ofInjectable (injectable : Injectable) : Creation where
  factory := injectable.factoryName
  parameters := (argumentNames injectable.arity).zip injectable.parameters
  target := injectable.target
  constructor := injectable.constructor
  arguments := argumentNames injectable.arity

/-- The call of the constructor. -/
def callTokens (creation : Creation) : List Token :=
  pathTokens creation.target.qualified ++ pathSeparator
    ++ [Token.word creation.constructor 2,
      .group .paren
        (separatedBy [.mark ',' false] (creation.arguments.map fun name => [.word name 2]))]

/-- The function `create`. -/
def functionTokens (creation : Creation) : List Token :=
  [Token.word "pub" 2, .word "fn" 2, .word "create" 2,
      .group .paren
        (separatedBy [.mark ',' false]
          (creation.parameters.map fun (name, type) => parameterTokens name type)),
      .mark '-' true, .mark '>' false]
    ++ pathTokens creation.target.qualified ++ [Token.group .brace creation.callTokens]

/-- The tokens of such a factory. -/
def tokens (creation : Creation) : List Token :=
  [.mark '#' false, derivation, .word "pub" 2, .word "struct" 2, .word creation.factory 2,
    .mark ';' false, .word "impl" 2, .word creation.factory 2,
    .group .brace creation.functionTokens]

/-- The tokens of a factory are those of its creation, by the very definition of both. -/
theorem tokens_ofInjectable (injectable : Injectable)
    : (ofInjectable injectable).tokens = factoryTokens injectable :=
  rfl

end Creation

/-- Whether a component has the content that a table spells. The path of the runtime is one text in
it, and stands for tokens wherever it prints some.
-/
structure Table.Spells (table : Table) (runtime component : String) (artifact : Artifact) : Prop where
  printed
    : artifact.content
      = render
          (Token.textOf
            (table.tokens [.literal runtime] component (bareName component ++ "Dispatch")))
  read
    : ∀ path,
        PrintsSome (fun _ => False) path runtime
        → Token.ofText? artifact.content
          = some (table.tokens path component (bareName component ++ "Dispatch"))

/-- Whether a function of the component serves an injectable by its factory. It resolves the types of
all parameters in order, and calls, on just what it resolved, the `create` of the factory at the path
of the factory; and that takes just these types in order and hands all of them to the constructor.
-/
structure Construction.Serves (construction : Construction) (injectable : Injectable)
    (factory : Artifact) (creation : Creation) : Prop where
  resolves : construction.resolved.map Prod.snd = injectable.parameters
  binds : construction.resolved.map Prod.fst = argumentNames injectable.arity
  passes : construction.arguments = construction.resolved.map Prod.fst
  calls : construction.callee = factory.qualifiedName
  declares : creation.factory = factory.name
  takes : creation.parameters = construction.resolved
  makes : creation.target = injectable.target
  constructs : creation.constructor = injectable.constructor
  forwards : creation.arguments = creation.parameters.map Prod.fst

-----------------------------------------------------------------------------------------
-- Rows
-----------------------------------------------------------------------------------------

/-- There are as many names as there are arguments. -/
theorem length_argumentNames (count : Nat)
    : (argumentNames count).length = count := by
  simp [argumentNames]

variable {injectable : Injectable}

/-- The function for an injectable serves it by its factory. -/
theorem serves_ofInjectable {factory : Artifact} (made : factory? injectable = some factory)
    (index : Nat)
    : (Construction.ofInjectable injectable index).Serves injectable factory
        (.ofInjectable injectable) := by
  have names : ((argumentNames injectable.arity).zip injectable.parameters).map Prod.fst
      = argumentNames injectable.arity :=
    List.map_fst_zip (by simp [length_argumentNames, Injectable.arity])
  have types : ((argumentNames injectable.arity).zip injectable.parameters).map Prod.snd
      = injectable.parameters :=
    List.map_snd_zip (by simp [length_argumentNames, Injectable.arity])
  obtain ⟨_, _, _, _, _, _, _, _, rfl⟩ := factory?_eq_some_iff.mp made
  exact {
    resolves := types
    binds := names
    passes := names.symm
    calls := rfl
    declares := rfl
    takes := rfl
    makes := rfl
    constructs := rfl
    forwards := names.symm
  }

/-- Where all names are identifiers, and the target has a plain one, the row is generated. -/
theorem AllSpelled.exists_row? (spelled : AllSpelled injectable)
    (bare : IsBare injectable.target.name) (runtime dispatch : String) (index : Nat)
    : ∃ row, row? runtime dispatch index injectable = some row := by
  obtain ⟨target, target?⟩ := spelled.target.exists_typePath?
  obtain ⟨factory, factory?⟩ := spelled.exists_beside?
  obtain ⟨resolutions, resolutions?⟩
      : ∃ resolutions, resolutions? injectable.parameters = some resolutions :=
    exists_mapM_arguments fun name type member => by
      obtain ⟨path, path?⟩ := (spelled.parameters type member).exists_typePath?
      exact ⟨_, by simp only [resolution?, path?]; rfl⟩
  have function? := word?_of_isToken (isToken_constructorName index spelled.target.name bare)
  simp only [row?, function?, target?, factory?, resolutions?]
  exact ⟨_, rfl⟩

/-- Spelled descriptors of bare names all have rows, since each has one. -/
theorem exists_rows? {injectables : List Injectable}
    (spelled : ∀ injectable ∈ injectables, AllSpelled injectable)
    (bare : ∀ injectable ∈ injectables, IsBare injectable.target.name) (runtime dispatch : String)
    : ∃ rows, rows? runtime dispatch injectables = some rows := by
  refine exists_mapM_eq_some fun (injectable, index) member => ?_
  have among := List.fst_mem_of_mem_zipIdx member
  exact (spelled injectable among).exists_row? (bare injectable among) runtime dispatch index

-----------------------------------------------------------------------------------------
-- The order of the rows
-----------------------------------------------------------------------------------------

/-- Sorting rows is a permutation. -/
theorem inRowOrder_perm (injectables : List Injectable)
    : (inRowOrder injectables).Perm injectables :=
  List.mergeSort_perm injectables _

/-- Not to be after is not to be preceded. -/
theorem notAfter_iff {left right : TypeName}
    : left.notAfter right = true ↔ ¬ right < left := by
  rw [TypeName.notAfter, Bool.not_eq_true', Bool.eq_false_iff]
  exact Iff.rfl

/-- No row stands behind one whose target comes after its own. -/
theorem sorted_inRowOrder (injectables : List Injectable)
    : (inRowOrder injectables).Pairwise fun left right => ¬ right.target < left.target := by
  simp only [← notAfter_iff]
  refine List.pairwise_mergeSort (fun left middle right first second => ?_) (fun left right => ?_) _
  · rw [notAfter_iff] at first second ⊢
    intro below
    rcases TypeName.lt_trichotomy left.target middle.target with less | same | greater
    · exact second (trans_of (· < ·) below less)
    · exact second (same ▸ below)
    · exact first greater
  · by_cases below : right.target < left.target
    · have above := notAfter_iff.mpr (asymm_of (· < ·) below)
      simp [above]
    · simp [notAfter_iff.mpr below]

/-- Injectables with targets of their own ascend by target in the order of their rows. -/
theorem ascending_inRowOrder {injectables : List Injectable}
    (distinct : (injectables.map Injectable.target).Nodup)
    : (inRowOrder injectables).Pairwise fun left right => left.target < right.target := by
  have apart : (inRowOrder injectables).Pairwise fun left right => left.target ≠ right.target := by
    have nodup := ((inRowOrder_perm injectables).map Injectable.target).nodup_iff.mpr distinct
    exact List.pairwise_map.mp nodup
  refine ((sorted_inRowOrder injectables).and apart).imp fun {left right} ⟨notBelow, apart⟩ => ?_
  exact ((TypeName.lt_trichotomy left.target right.target).resolve_right fun other =>
    other.elim apart notBelow)

-----------------------------------------------------------------------------------------
-- Agreement
-----------------------------------------------------------------------------------------

/-- The functions of different rows have different names. -/
theorem nodup_functions (injectables : List Injectable)
    : ((Table.ofInjectables injectables).functions.map Construction.name).Nodup := by
  simp only [Table.ofInjectables, List.map_map]
  have indices : (injectables.zipIdx.map Prod.snd).Nodup := by
    rw [List.zipIdx_map_snd]
    exact List.nodup_range'
  refine (List.Nodup.of_map _ indices).map_on fun left inLeft right inRight same => ?_
  exact List.inj_on_of_nodup_map indices inLeft inRight (index_eq_of_constructorName_eq same)

/-- Each row refers to the function of its place. -/
theorem entries_ofInjectables (injectables : List Injectable)
    : (Table.ofInjectables injectables).entries
      = (injectables.map Injectable.target).zip
          ((Table.ofInjectables injectables).functions.map Construction.name) := by
  have targets
      : injectables.map Injectable.target
        = injectables.zipIdx.map fun numbered => numbered.1.target := by
    calc
      injectables.map Injectable.target
      _ = (injectables.zipIdx.map Prod.fst).map Injectable.target := by rw [List.zipIdx_map_fst]
      _ = _ := List.map_map
  simp only [Table.ofInjectables, List.map_map, targets, List.zip_map', Function.comp_def]
  rfl

/-- A component that is generated is made of its rows. Every other branch fails. -/
theorem component_eq_ok {settings : Settings} {injectables : List Injectable} {artifact : Artifact}
    (made : Emission.component settings injectables = .ok artifact)
    : ∃ runtime component rows,
        readPath? settings.runtimePath = some runtime
        ∧ readIdentifier? settings.componentName = some component
        ∧ rows? runtime (bareName component ++ "Dispatch") (inRowOrder injectables) = some rows
        ∧ artifact
          = {
            home := settings.componentNamespace
            name := settings.componentName
            kind := .component
            content := render (componentCode runtime component (bareName component ++ "Dispatch") rows)
            origins := ⟨true, declaringFiles (inRowOrder injectables)⟩
          } := by
  unfold Emission.component at made
  split at made
  · contradiction
  · rename_i runtime path
    split at made
    · contradiction
    · rename_i component name
      dsimp only at made
      split at made
      · contradiction
      · rename_i rows found
        exact ⟨runtime, component, rows, path, name, found, (Except.ok.inj made).symm⟩

/-- The component of spelled injectables is generated, and says what its table spells. Each text of the
table has a word, so no row is missing, and what is printed is read back as the tokens of the table.
-/
theorem exists_component_spells {settings : Settings} {injectables : List Injectable}
    {runtime component : String} (spelled : ∀ injectable ∈ injectables, AllSpelled injectable)
    (bare : ∀ injectable ∈ injectables, IsBare injectable.target.name)
    (path : readPath? settings.runtimePath = some runtime)
    (name : readIdentifier? settings.componentName = some component)
    : ∃ artifact,
        Emission.component settings injectables = .ok artifact
        ∧ (Table.ofInjectables (inRowOrder injectables)).Spells runtime component artifact := by
  have named := isToken_of_readIdentifier? name
  have token : Identifier.isToken (bareName component ++ "Dispatch") = true :=
    isToken_append_bareName named (forall_mem_of_all (by decide))
  have ordered := inRowOrder_perm injectables
  obtain ⟨rows, rows?⟩ :=
    exists_rows? (fun injectable member => spelled injectable (ordered.mem_iff.mp member))
      (fun injectable member => bare injectable (ordered.mem_iff.mp member)) runtime
      (bareName component ++ "Dispatch")
  simp only [Emission.component, path, name, rows?]
  refine ⟨_, rfl, ?_, ?_⟩
  · rw [(printsSome_tableTokens (printsSome_literal runtime) named token rows?).printed]
  · intro tokens known
    exact ofText?_render (printsSome_tableTokens known named token rows?)

/-- The factories of spelled injectables are generated, and the functions of the component serve the
injectables by them, row by row.
-/
theorem forall₂_serves {injectables : List Injectable}
    (spelled : ∀ injectable ∈ injectables, AllSpelled injectable)
    : List.Forall₂
        (fun injectable construction =>
          ∃ factory creation,
            factory? injectable = some factory
            ∧ Token.ofText? factory.content = some (Creation.tokens creation)
            ∧ Construction.Serves construction injectable factory creation)
        injectables (Table.ofInjectables injectables).functions := by
  suffices each
      : ∀ start, List.Forall₂ _ injectables
          ((injectables.zipIdx start).map fun numbered =>
            Construction.ofInjectable numbered.1 numbered.2) from
    each 0
  induction injectables with
  | nil => exact fun _ => .nil
  | cons injectable rest ih =>
      intro start
      obtain ⟨here, later⟩ := List.forall_mem_cons.mp spelled
      obtain ⟨factory, made⟩ := here.exists_factory?
      refine .cons ?_ (ih later (start + 1))
      refine ⟨factory, .ofInjectable injectable, made, ?_, serves_ofInjectable made start⟩
      rw [Creation.tokens_ofInjectable]
      exact ofText?_content made

/-- The component and the factories of injectables with targets of their own, whose names are all
spelled as identifiers. The component is generated, and its table has one row for each injectable, in
ascending order of the targets; each row refers to the function of its place, and no two functions
have one name. The factories are generated too, and each function serves the injectable of its row by
the factory of that.
-/
theorem component_agrees_with_factories {settings : Settings} {injectables : List Injectable}
    {runtime component : String} (distinct : (injectables.map Injectable.target).Nodup)
    (spelled : ∀ injectable ∈ injectables, AllSpelled injectable)
    (bare : ∀ injectable ∈ injectables, IsBare injectable.target.name)
    (path : readPath? settings.runtimePath = some runtime)
    (name : readIdentifier? settings.componentName = some component)
    : ∃ artifact table ordered,
        Emission.component settings injectables = .ok artifact
        ∧ Table.Spells table runtime component artifact
        ∧ List.Perm ordered injectables
        ∧ (ordered.Pairwise fun left right => left.target < right.target)
        ∧ table.entries
          = (ordered.map Injectable.target).zip (table.functions.map Construction.name)
        ∧ (table.functions.map Construction.name).Nodup
        ∧ List.Forall₂
            (fun injectable construction =>
              ∃ factory creation,
                factory? injectable = some factory
                ∧ Token.ofText? factory.content = some (Creation.tokens creation)
                ∧ Construction.Serves construction injectable factory creation)
            ordered table.functions := by
  obtain ⟨artifact, made, spells⟩ := exists_component_spells spelled bare path name
  have ordered := inRowOrder_perm injectables
  refine ⟨artifact, .ofInjectables (inRowOrder injectables), inRowOrder injectables, made, spells,
    ordered, ascending_inRowOrder distinct, entries_ofInjectables _, nodup_functions _, ?_⟩
  exact forall₂_serves fun injectable member => spelled injectable (ordered.mem_iff.mp member)

/-- A client without parameters, and a repository that needs it and a context of another crate. -/
def repositoryAndClient : List Injectable :=
  [{
    target := ⟨"crate::repo", "Repository1"⟩
    constructor := "new"
    parameters := [⟨"crate::net", "NetworkClient"⟩, ⟨"platform", "Context"⟩]
    location := ⟨⟨"src/repo.rs"⟩, 8⟩
  }, {
    target := ⟨"crate::net", "NetworkClient"⟩
    constructor := "new"
    parameters := []
    location := ⟨⟨"src/net.rs"⟩, 5⟩
  }]

/-- The repository and the client are spelled in identifiers. -/
theorem allSpelled_repositoryAndClient
    : ∀ injectable ∈ repositoryAndClient, AllSpelled injectable := by
  have spelled
      : ∀ type ∈ [TypeName.mk "crate::repo" "Repository1", ⟨"crate::net", "NetworkClient"⟩,
            ⟨"platform", "Context"⟩],
          (∀ word ∈ wordsOfPath type.home, Identifier.isToken word = true)
          ∧ Identifier.isToken type.name = true := by
    decide +kernel
  have types (type : TypeName)
      (among
        : type ∈ [TypeName.mk "crate::repo" "Repository1", ⟨"crate::net", "NetworkClient"⟩,
            ⟨"platform", "Context"⟩])
      : IsSpelled type :=
    ⟨(spelled type among).1, (spelled type among).2⟩
  simp only [repositoryAndClient, List.forall_mem_cons]
  refine ⟨⟨types _ (by simp), by decide, fun type member => types type ?_⟩,
    ⟨types _ (by simp), by decide, by simp⟩, by simp⟩
  exact List.mem_cons_of_mem _ member

/-- Neither of their names is raw. -/
theorem isBare_repositoryAndClient
    : ∀ injectable ∈ repositoryAndClient, IsBare injectable.target.name := by
  decide +kernel

/-- Witness: the component of a repository and a client, with a context from outside of the crate. -/
theorem component_agrees_with_factories_repositoryAndClient
    : (repositoryAndClient.map Injectable.target).Nodup
      ∧ readPath? "::tinydi" = some ":: tinydi"
      ∧ readIdentifier? "TinyDiComponent" = some "TinyDiComponent"
      ∧ ∃ artifact table ordered,
          Emission.component {} repositoryAndClient = .ok artifact
          ∧ Table.Spells table ":: tinydi" "TinyDiComponent" artifact
          ∧ List.Perm ordered repositoryAndClient
          ∧ (ordered.Pairwise fun left right => left.target < right.target)
          ∧ table.entries
            = (ordered.map Injectable.target).zip (table.functions.map Construction.name)
          ∧ (table.functions.map Construction.name).Nodup
          ∧ List.Forall₂
              (fun injectable construction =>
                ∃ factory creation,
                  factory? injectable = some factory
                  ∧ Token.ofText? factory.content = some (Creation.tokens creation)
                  ∧ Construction.Serves construction injectable factory creation)
              ordered table.functions := by
  have distinct : (repositoryAndClient.map Injectable.target).Nodup := by decide
  exact ⟨distinct, Settings.readPath?_default, Settings.readIdentifier?_default,
    component_agrees_with_factories distinct allSpelled_repositoryAndClient
      isBare_repositoryAndClient Settings.readPath?_default Settings.readIdentifier?_default⟩

end Wiring.Emission
