import Wiring.Proofs.Generation.Staleness
import Wiring.Proofs.Index.Placement

/-! What the content of a factory depends on. Two crates that hold the same files for the sources of a
factory find the same declaration in them; but its types are looked up in the whole crate. The factory
is the same in both as long as what is asked there is answered alike.
-/

namespace Wiring

open Index

-----------------------------------------------------------------------------------------
-- Factories of two crates
-----------------------------------------------------------------------------------------

/-- Two runs answer alike what the declarations in the files depend on, each run in the round that
records the declaration.
-/
def AnswersAgree (files : List FilePath) (start other : Index) (turns others : List Turn) : Prop :=
  ∀ turn ∈ turns, ∀ later ∈ others, ∀ marked ∈ start.marked, ∀ counterpart ∈ other.marked,
    ∀ injectable found,
      turn.Records marked injectable
      → later.Records counterpart found
      → marked.location.file ∈ files
      → Corresponds turn.index later.index marked counterpart
      → AlikeOn turn.index later.index (turn.index.asked marked)

/-- A declaration that is recorded in both runs is recorded as the same injectable. What it depends on
is answered alike, so owner and parameters resolve to the same types; and the rest is read off the
declaration.
-/
theorem Turn.Records.eq_of_alike {turn later : Turn} {marked other : Marked}
    {injectable found : Injectable} (records : turn.Records marked injectable)
    (recordsLater : later.Records other found)
    (corresponds : Corresponds turn.index later.index marked other)
    (alike : AlikeOn turn.index later.index (turn.index.asked marked))
    : found = injectable := by
  have declaration := corresponds.declaration
  obtain ⟨scope, here⟩ := exists_scope records.target
  have there : later.index.scopes[other.scope]? = some scope := corresponds.scope.trans here
  have owners : other.owner = marked.owner := congrArg (·.owner) declaration
  have parameters : other.parameters = marked.parameters := congrArg (·.parameters) declaration
  rw [asked, here] at alike
  obtain ⟨ownerAlike, parametersAlike⟩ := types_eq_of_alike here there owners parameters alike
  have target : found.target = injectable.target := by
    rw [← Option.some.injEq, ← recordsLater.target, ← records.target]
    exact ownerAlike
  have types : found.parameters = injectable.parameters := by
    rw [← Option.some.injEq, ← recordsLater.parameters, ← records.parameters]
    exact parametersAlike
  have constructors : found.constructor = injectable.constructor := by
    rw [recordsLater.constructor, records.constructor]
    exact congrArg (·.name) declaration
  have locations : found.location = injectable.location := by
    rw [recordsLater.location, records.location]
    exact congrArg (·.location) declaration
  obtain ⟨_, _, _, _⟩ := found
  obtain ⟨_, _, _, _⟩ := injectable
  simp_all only

/-- A declaration stands in its scope in every round. -/
theorem Course.corresponds {settings : Settings} {start other first second : Index}
    {turns others : List Turn} {generation later : Generation}
    (course : Course settings start turns first generation)
    (courseOther : Course settings other others second later) {marked counterpart : Marked}
    (below : marked.scope < start.scopes.length)
    (belowOther : counterpart.scope < other.scopes.length)
    (corresponds : Corresponds start other marked counterpart)
    : Corresponds first second marked counterpart where
  declaration := corresponds.declaration
  scope := by
    rw [course.grown.scopes, courseOther.grown.scopes, List.getElem?_append_left below,
      List.getElem?_append_left belowOther]
    exact corresponds.scope

namespace Workplace

variable {σ τ : Type} {write : Writer σ} {writeOther : Writer τ} {settings : Settings}
  {marker : String} {sources others : List SourceFile} {store : σ} {storeOther : τ}

/-- Two runs with the same settings write factories to their stores, and then the component. A factory
of both, over sources that agree on the files it depends on, has the same content in both, if the runs
answer alike what its declaration depends on. The declaration behind the factory has a counterpart in
the other run, which is recorded as the same injectable, and a target has one factory.
-/
theorem run_factories_isolated {summary otherSummary : Summary}
    (readable : ∀ source ∈ sources, (Source.Item.ofText? source.content).isSome = true)
    (readableOthers : ∀ source ∈ others, (Source.Item.ofText? source.content).isSome = true)
    (done : (run write ⟨{ settings }, ofSources marker sources, store⟩).result = .ok summary)
    (doneOther
      : (run writeOther ⟨{ settings }, ofSources marker others, storeOther⟩).result
        = .ok otherSummary)
    : ∃ turns generation component otherTurns otherGeneration otherComponent,
        Completes settings (ofSources marker sources) turns generation
        ∧ Written write store (turns.flatMap Turn.factories ++ [component])
            (run write ⟨{ settings }, ofSources marker sources, store⟩).state.store
        ∧ Completes settings (ofSources marker others) otherTurns otherGeneration
        ∧ Written writeOther storeOther (otherTurns.flatMap Turn.factories ++ [otherComponent])
            (run writeOther ⟨{ settings }, ofSources marker others, storeOther⟩).state.store
        ∧ ∀ factory ∈ turns.flatMap Turn.factories,
          ∀ other ∈ otherTurns.flatMap Turn.factories,
          other.qualifiedName = factory.qualifiedName
          → other.origins = factory.origins
          → (∀ source, source.path ∈ factory.origins.sources → (source ∈ sources ↔ source ∈ others))
          → AnswersAgree factory.origins.sources (ofSources marker sources)
              (ofSources marker others) turns otherTurns
          → other.content = factory.content := by
  obtain ⟨turns, generation, component, completes, _, _, written, _⟩ := run_eq_ok done
  obtain ⟨otherTurns, otherGeneration, otherComponent, completesOther, _, _, writtenOther, _⟩ :=
    run_eq_ok doneOther
  refine ⟨turns, generation, component, otherTurns, otherGeneration, otherComponent, completes,
    written, completesOther, writtenOther, ?_⟩
  intro factory member other memberOther named origins shared agree
  obtain ⟨injectable, kept, made⟩ := completes.exists_injectable member
  obtain ⟨injectableOther, keptOther, madeOther⟩ := completesOther.exists_injectable memberOther
  -- The declaration that the factory was made for has a counterpart in the other run.
  obtain ⟨marked, present, turn, member, records⟩ := completes.exists_declaration kept
  have depends : marked.location.file ∈ factory.origins.sources := by
    rw [origins_of_factory? made, records.location]
    exact List.mem_singleton.mpr rfl
  obtain ⟨source, among, path, counterparts⟩ := exists_source_of_marked readable present
  obtain ⟨counterpart, presentOther, corresponds⟩ :=
    counterparts others readableOthers ((shared source (path ▸ depends)).mp among)
  obtain ⟨later, memberOther, found, recordsOther⟩ := completesOther.exists_records presentOther
  obtain ⟨_, _, _, course, _⟩ := completes.of_mem member
  obtain ⟨_, _, _, courseOther, _⟩ := completesOther.of_mem memberOther
  have inRounds : Corresponds turn.index later.index marked counterpart :=
    course.corresponds courseOther ((placed_ofSources readable).2 marked present)
      ((placed_ofSources readableOthers).2 counterpart presentOther) corresponds
  have same : found = injectable :=
    records.eq_of_alike recordsOther inRounds
      (agree turn member later memberOther marked present counterpart presentOther injectable found
        records recordsOther depends inRounds)
  -- It was recorded under the target of the other factory, which is that of no other declaration.
  have targets : injectableOther.target = injectable.target :=
    target_eq_of_qualifiedName_eq made madeOther named
  have behind : injectableOther = injectable := by
    rw [← same]
    refine completesOther.eq_of_target_eq keptOther
      (completesOther.mem_injectables memberOther recordsOther) ?_
    rw [targets, same]
  rw [behind, made] at madeOther
  rw [Option.some.inj madeOther]

/-- Where declarations mention only types declared beside them, any run over a crate that declares these
types too answers alike.
-/
theorem answersAgree_of_beside {start other : Index} {turns otherTurns : List Turn}
    {generation otherGeneration : Generation}
    (completes : Completes settings start turns generation)
    (completesOther : Completes settings other otherTurns otherGeneration)
    (beside
      : ∀ marked ∈ start.marked, ∃ scope,
          start.scopes[marked.scope]? = some scope
          ∧ ∀ path ∈ marked.paths, ∃ name ∈ path.segments,
              path = .single name ∧ Segments.within scope.home name ∈ start.declared)
    (included : start.declared ⊆ other.declared) (files : List FilePath)
    : AnswersAgree files start other turns otherTurns := by
  intro turn member later memberOther marked present _ _ _ _ _ _ _ _ question asked
  obtain ⟨scope, here, mentioned⟩ := beside marked present
  obtain ⟨_, _, _, course, _⟩ := completes.of_mem member
  obtain ⟨_, _, _, courseOther, _⟩ := completesOther.of_mem memberOther
  obtain ⟨name, known, rfl⟩ := course.grown.exists_of_asked_beside here mentioned asked
  have first : turn.index.declares name = true :=
    List.contains_iff_mem.mpr (course.grown.mem_declared.mpr (.inl known))
  have second : later.index.declares name = true :=
    List.contains_iff_mem.mpr (courseOther.grown.mem_declared.mpr (.inl (included known)))
  exact second.trans first.symm

/-- The factory of a declaration whose owner is declared beside it. The scope imports nothing, so the
owner is the type beside it in every round.
-/
theorem exists_factory_of_beside {start : Index} {turns : List Turn} {generation : Generation}
    (completes : Completes settings start turns generation) (marked : Marked) {home name : String}
    {target : TypeName} (present : marked ∈ start.marked)
    (here : start.scopes[marked.scope]? = some ⟨home, []⟩) (owner : marked.owner = some (.single name))
    (ordinary : name ≠ "Self") (declared : Segments.within home name ∈ start.declared)
    (read : TypeName.parse? (Segments.within home name) = some target)
    : ∃ factory ∈ turns.flatMap Turn.factories,
        factory.qualifiedName = Segments.within target.home (target.name ++ "Factory")
        ∧ factory.origins = ⟨false, [marked.location.file]⟩ := by
  obtain ⟨turn, member, injectable, records⟩ := completes.exists_records present
  obtain ⟨factory, made, same⟩ := exists_of_forall₂ completes.made
    (List.mem_flatMap.mpr ⟨turn, member, records.accepted⟩)
  obtain ⟨_, _, _, course, _⟩ := completes.of_mem member
  have there : turn.index.scopes[marked.scope]? = some ⟨home, []⟩ := by
    rw [course.grown.scopes, List.getElem?_append_left (List.getElem?_eq_some_iff.mp here).1]
    exact here
  have known : turn.index.declares (Segments.within home name) = true :=
    List.contains_iff_mem.mpr (course.grown.mem_declared.mpr (.inl declared))
  have resolved := records.target
  simp only [ownerType?, there, owner] at resolved
  have beside
      : turn.index.resolve? ⟨home, []⟩ none (.single name)
        = TypeName.parse? (Segments.within home name) :=
    resolve?_of_beside ordinary known
  rw [beside, read] at resolved
  obtain rfl := Option.some.inj resolved
  refine ⟨factory, made, qualifiedName_of_factory? same, ?_⟩
  rw [origins_of_factory? same, records.location]

/-- A client and the socket it needs. -/
private def socketFile : SourceFile :=
  ⟨⟨"src/m.rs"⟩, "crate::m",
    "struct C;struct S;impl C{#[inject]fn new(s:Arc<S>)->Self{C}}impl S{#[inject]fn new()->Self{S}}"⟩

/-- A file without a mark. -/
private def unrelatedFile : SourceFile :=
  ⟨⟨"src/o.rs"⟩, "crate::o", "struct O;"⟩

/-- What stands in a module of two constructors, the first of which needs the other. -/
private def socketIndex : Index := {
  marker := "inject"
  scopes := [⟨"crate::m", []⟩]
  declared := ["crate::m::C", "crate::m::S"]
  modules := ["crate::m", "crate"]
  marked := [constructorOf "C" [⟨"s", .shared (.single "S")⟩] 1, constructorOf "S" [] 1]
  files := [⟨"src/m.rs"⟩]
}

/-- The same behind another file. -/
private def socketIndexBehind : Index := {
  marker := "inject"
  scopes := [⟨"crate::o", []⟩, ⟨"crate::m", []⟩]
  declared := ["crate::o::O", "crate::m::C", "crate::m::S"]
  modules := ["crate::o", "crate", "crate::m", "crate"]
  marked := socketIndex.marked.map (Marked.atScope · 1)
  files := [⟨"src/o.rs"⟩, ⟨"src/m.rs"⟩]
}

/-- What is recorded of the client and the socket. -/
private def socketRecorded : Generation := {
  settings := {}
  injectables := [
    ⟨⟨"crate::m", "C"⟩, "new", [⟨"crate::m", "S"⟩], ⟨⟨"src/m.rs"⟩, 1⟩⟩,
    ⟨⟨"crate::m", "S"⟩, "new", [], ⟨⟨"src/m.rs"⟩, 1⟩⟩
  ]
  processed := ["src/m.rs:1#C::new", "src/m.rs:1#S::new"]
  rounds := 1
}

/-- The index of their file. -/
private theorem ofSource_socketFile
    : ofSource "inject" socketFile = socketIndex := by
  rw [socketFile, ofSource_ofList]
  decide +kernel

/-- Both files can be read. -/
private theorem readable_socketFiles
    : ∀ source ∈ [unrelatedFile, socketFile], (Source.Item.ofText? source.content).isSome = true := by
  refine List.forall_mem_cons.mpr ⟨by decide +kernel, List.forall_mem_singleton.mpr ?_⟩
  have opened : (ofSource "inject" socketFile).scopes ≠ [] := by
    simp [ofSource_socketFile, socketIndex]
  exact isSome_of_scopes_ofSource opened

/-- The index of their file alone, and behind the other one. -/
private theorem ofSources_socketFiles
    : ofSources "inject" [socketFile] = socketIndex
      ∧ ofSources "inject" [unrelatedFile, socketFile] = socketIndexBehind := by
  have readable : ∀ source ∈ [socketFile], (Source.Item.ofText? source.content).isSome = true :=
    fun source member => readable_socketFiles source (List.mem_cons_of_mem _ member)
  rw [ofSources_eq_foldl readable, ofSources_eq_foldl readable_socketFiles]
  simp only [List.map_cons, List.map_nil, ofSource_socketFile]
  decide +kernel

/-- Witness: the unrelated file makes no difference to the factory of the client. -/
theorem run_factories_isolated_unrelatedFile
    : ∃ summary otherSummary turns generation otherTurns otherGeneration,
        (run MemoryStore.write ⟨{ settings := {} }, ofSources "inject" [socketFile], {}⟩).result
          = .ok summary
        ∧ (run MemoryStore.write
            ⟨{ settings := {} }, ofSources "inject" [unrelatedFile, socketFile], {}⟩).result
          = .ok otherSummary
        ∧ Completes {} (ofSources "inject" [socketFile]) turns generation
        ∧ Completes {} (ofSources "inject" [unrelatedFile, socketFile]) otherTurns otherGeneration
        ∧ ∃ factory ∈ turns.flatMap Turn.factories, ∃ other ∈ otherTurns.flatMap Turn.factories,
          factory.qualifiedName = "crate::m::CFactory"
          ∧ other.qualifiedName = factory.qualifiedName
          ∧ other.origins = factory.origins
          ∧ other.content = factory.content := by
  obtain ⟨alone, behind⟩ := ofSources_socketFiles
  obtain ⟨settles, settlesBehind⟩
      : SettlesAtOnce socketIndex socketRecorded
        ∧ SettlesAtOnce socketIndexBehind socketRecorded := by
    decide +kernel
  obtain ⟨summary, done, _⟩ := settles.run_eq_ok
  obtain ⟨otherSummary, doneOther, _⟩ := settlesBehind.run_eq_ok
  rw [← alone] at done
  rw [← behind] at doneOther
  obtain ⟨turns, generation, _, otherTurns, otherGeneration, _, completes, _, completesOther, _,
      isolated⟩ :=
    run_factories_isolated
      (fun source member => readable_socketFiles source (List.mem_cons_of_mem _ member))
      readable_socketFiles done doneOther
  refine ⟨summary, otherSummary, turns, generation, otherTurns, otherGeneration, done, doneOther,
    completes, completesOther, ?_⟩
  rw [alone] at completes isolated
  rw [behind] at completesOther isolated
  let client := constructorOf "C" [⟨"s", .shared (.single "S")⟩] 1
  have read : TypeName.parse? (Segments.within "crate::m" "C") = some ⟨"crate::m", "C"⟩ := by
    decide +kernel
  obtain ⟨factory, member, named, origins⟩ :=
    exists_factory_of_beside completes client List.mem_cons_self rfl rfl (by decide)
      (by decide +kernel) read
  obtain ⟨other, memberOther, namedOther, originsOther⟩ :=
    exists_factory_of_beside completesOther (client.atScope 1) List.mem_cons_self rfl rfl
      (by decide) (by decide +kernel) read
  have shared : ∀ source, source.path ∈ factory.origins.sources →
      (source ∈ [socketFile] ↔ source ∈ [unrelatedFile, socketFile]) := by
    intro source path
    have apart : source ≠ unrelatedFile := by
      rintro rfl
      rw [origins] at path
      exact absurd path (by decide +kernel)
    simp [apart]
  have agree := answersAgree_of_beside completes completesOther (by decide +kernel)
    (by decide +kernel) factory.origins.sources
  refine ⟨factory, member, other, memberOther, named.trans (by decide +kernel),
    namedOther.trans named.symm, originsOther.trans origins.symm, ?_⟩
  exact isolated factory member other memberOther (namedOther.trans named.symm)
    (originsOther.trans origins.symm) shared agree

/-- A root that exports the type of one of two modules. -/
private def reexportingRoot (inner : String) : SourceFile :=
  ⟨⟨"src/lib.rs"⟩, "crate", "pub use a::" ++ inner ++ "::C;"⟩

/-- A crate with two types of one name, the one of the inner module imported publicly at its root, and a
constructor that is handed that one.
-/
private def reexportingFiles (inner : String) : List SourceFile := [
  ⟨⟨"src/a.rs"⟩, "crate::a", "mod x{struct C;}mod y{struct C;}"⟩,
  reexportingRoot inner,
  ⟨⟨"src/r.rs"⟩, "crate::r", "struct R;impl R{#[inject]fn new(c:Arc<crate::C>)->Self{R}}"⟩
]

/-- A constructor that takes the type by its exported name. -/
private def constructorOverReexport : Marked := {
  location := ⟨⟨"src/r.rs"⟩, 1⟩
  home := "crate::r"
  scope := 4
  owner := some (.single "R")
  ownerIsGeneric := false
  name := "new"
  objection := none
  parameters := [⟨"c", .shared ⟨false, ["crate", "C"]⟩⟩]
}

/-- The index of the three files. -/
private def reexportingIndex (inner : String) : Index := {
  marker := "inject"
  scopes := [
    ⟨"crate::a", []⟩,
    ⟨"crate::a::x", []⟩,
    ⟨"crate::a::y", []⟩,
    ⟨"crate", [.named "C" ⟨false, ["a", inner, "C"]⟩]⟩,
    ⟨"crate::r", []⟩
  ]
  declared := ["crate::a::x::C", "crate::a::y::C", "crate::r::R"]
  modules := [
    "crate::a", "crate", "crate::a::x", "crate::a", "crate", "crate::a::y", "crate::a", "crate",
    "crate", "crate::r", "crate"
  ]
  reexports := [⟨"crate", .named "C" ⟨false, ["a", inner, "C"]⟩⟩]
  marked := [constructorOverReexport]
  files := [⟨"src/a.rs"⟩, ⟨"src/lib.rs"⟩, ⟨"src/r.rs"⟩]
}

/-- What the constructor is recorded as, which names the module behind the export. -/
private def overReexport (inner : String) : Injectable :=
  ⟨⟨"crate::r", "R"⟩, "new", [⟨"crate::a::" ++ inner, "C"⟩], ⟨⟨"src/r.rs"⟩, 1⟩⟩

/-- What is recorded after one round. -/
private def reexportRecorded (inner : String) : Generation := {
  settings := {}
  injectables := [overReexport inner]
  processed := ["src/r.rs:1#R::new"]
  rounds := 1
}

/-- Whichever module is exported, the files make up that index. -/
private theorem ofSources_reexportingFiles
    : ∀ inner ∈ ["x", "y"], ofSources "inject" (reexportingFiles inner) = reexportingIndex inner := by
  decide +kernel

/-- A run over the crate completes with the one constructor recorded over the type imported publicly. -/
private theorem run_reexportingFiles {inner : String} (member : inner ∈ ["x", "y"])
    : ∃ summary turns,
        (run MemoryStore.write
            ⟨{ settings := {} }, ofSources "inject" (reexportingFiles inner), {}⟩).result
          = .ok summary
        ∧ Completes {} (ofSources "inject" (reexportingFiles inner)) turns (reexportRecorded inner)
        ∧ ∃ factory ∈ turns.flatMap Turn.factories,
            Emission.factory? (overReexport inner) = some factory := by
  have settles
      : ∀ inner ∈ ["x", "y"], SettlesAtOnce (reexportingIndex inner) (reexportRecorded inner) := by
    decide +kernel
  obtain ⟨summary, done, state⟩ := (settles inner member).run_eq_ok
  rw [← ofSources_reexportingFiles inner member] at done state
  obtain ⟨turns, _, _, completes, same, _⟩ := run_eq_ok done
  obtain rfl := same.symm.trans state
  refine ⟨summary, turns, done, completes, exists_of_forall₂ completes.made ?_⟩
  exact completes.kept.injectables.mem_iff.mp List.mem_cons_self

/-- The factory of a constructor changes with a public import of another file, though it depends on
none but the file of the constructor. The two files without the public import are the same, and
the import decides which type the parameter has.
-/
theorem run_factories_reexported
    : ∃ first second summary otherSummary turns generation otherTurns otherGeneration,
        (run MemoryStore.write ⟨{ settings := {} }, ofSources "inject" first, {}⟩).result
          = .ok summary
        ∧ (run MemoryStore.write ⟨{ settings := {} }, ofSources "inject" second, {}⟩).result
          = .ok otherSummary
        ∧ Completes {} (ofSources "inject" first) turns generation
        ∧ Completes {} (ofSources "inject" second) otherTurns otherGeneration
        ∧ ∃ factory ∈ turns.flatMap Turn.factories, ∃ other ∈ otherTurns.flatMap Turn.factories,
          other.qualifiedName = factory.qualifiedName
          ∧ other.origins = factory.origins
          ∧ (∀ source, source.path ∈ factory.origins.sources → (source ∈ first ↔ source ∈ second))
          ∧ other.content ≠ factory.content := by
  obtain ⟨summary, turns, done, completes, factory, member, made⟩ :=
    run_reexportingFiles (by decide : "x" ∈ ["x", "y"])
  obtain ⟨otherSummary, otherTurns, doneOther, completesOther, other, memberOther, madeOther⟩ :=
    run_reexportingFiles (by decide : "y" ∈ ["x", "y"])
  have origins := origins_of_factory? made
  refine ⟨reexportingFiles "x", reexportingFiles "y", summary, otherSummary, turns, _, otherTurns, _,
    done, doneOther, completes, completesOther, factory, member, other, memberOther, ?_, ?_, ?_, ?_⟩
  · rw [qualifiedName_of_factory? made, qualifiedName_of_factory? madeOther]
    rfl
  · rw [origins, origins_of_factory? madeOther]
    rfl
  · intro source path
    rw [origins] at path
    have named : source.path = ⟨"src/r.rs"⟩ := List.mem_singleton.mp path
    have apart (inner : String) : source ≠ reexportingRoot inner := by
      rintro rfl
      have same : FilePath.mk "src/lib.rs" = ⟨"src/r.rs"⟩ := named
      exact absurd same (by decide)
    simp [reexportingFiles, apart]
  · have differ
        : (Emission.factory? (overReexport "y")).map Artifact.content
          ≠ (Emission.factory? (overReexport "x")).map Artifact.content := by
      decide +kernel
    rw [made, madeOther] at differ
    simpa using differ

end Workplace

end Wiring
