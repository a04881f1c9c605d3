import Wiring.Proofs.Generation.Accounting
import Wiring.Proofs.Index.Footprint

/-! Whether what a run has recorded still holds once its factories are sources of the crate. The index
only grows by them, but a new declaration or module may be the answer to something that was asked in
vain before; short of that, the recorded types stay what they were.
-/

namespace Wiring

open Index

-----------------------------------------------------------------------------------------
-- Questions asked in vain
-----------------------------------------------------------------------------------------

/-- What the types of a marked declaration depend on, in the scope it was found in. -/
def Index.asked (index : Index) (marked : Marked) : List Question :=
  match index.scopes[marked.scope]? with
  | some scope => index.askedForTypes scope marked
  | none => []

/-- Whether a declaration or a module is asked for that the index does not have. -/
def Index.Lacks (index : Index) : Question → Prop
  | .declares name => index.declares name = false
  | .hasModule name => index.modules.contains name = false
  | _ => False

/-- Whether the factory brings in the declaration or the module that is asked for. -/
def Artifact.Supplies (factory : Artifact) : Question → Prop
  | .declares name => factory.qualifiedName = name
  | .hasModule name => name ∈ lineage factory.home.length factory.home
  | _ => False

/-- The factory captures a declaration when it brings in something that was asked for in vain when the
index answered the types of the declaration.
-/
def Artifact.Captures (factory : Artifact) (index : Index) (marked : Marked) : Prop :=
  ∃ question ∈ index.asked marked, index.Lacks question ∧ factory.Supplies question

namespace Index

/-- Names that come in with more factories were asked for in vain before, or not at all. -/
theorem contains_eq_of_supplied {known first second : List String}
    {factories others : List Artifact} {supplies : Artifact → Prop} {name : String}
    (earlier : name ∈ first ↔ name ∈ known ∨ ∃ factory ∈ factories, supplies factory)
    (later : name ∈ second ↔ name ∈ known ∨ ∃ factory ∈ others, supplies factory)
    (included : factories ⊆ others)
    (unsupplied : first.contains name = false → ∀ factory ∈ others, ¬ supplies factory)
    : second.contains name = first.contains name := by
  rw [Bool.eq_iff_iff, List.contains_iff_mem, List.contains_iff_mem]
  constructor
  · intro member
    by_contra absent
    rcases later.mp member with before | ⟨factory, made, brought⟩
    · exact absent (earlier.mpr (.inl before))
    · exact unsupplied (by simpa using absent) factory made brought
  · intro member
    rcases earlier.mp member with before | ⟨factory, made, brought⟩
    · exact later.mpr (.inl before)
    · exact later.mpr (.inr ⟨factory, included made, brought⟩)

/-- With factories, an index declares what it did and what they supply. -/
theorem Grown.mem_declared {factories : List Artifact} {before after : Index} {name : String}
    (grown : Grown factories before after)
    : name ∈ after.declared
      ↔ name ∈ before.declared ∨ ∃ factory ∈ factories, factory.Supplies (.declares name) := by
  rw [grown.declared, List.mem_append, List.mem_map]
  rfl

/-- The same for modules. -/
theorem Grown.mem_modules {factories : List Artifact} {before after : Index} {name : String}
    (grown : Grown factories before after)
    : name ∈ after.modules
      ↔ name ∈ before.modules ∨ ∃ factory ∈ factories, factory.Supplies (.hasModule name) := by
  rw [grown.modules, List.mem_append, List.mem_flatMap]
  rfl

/-- An index with more factories answers alike what none of them brings in. -/
theorem alike_of_grown {start first second : Index} {factories others : List Artifact}
    (earlier : Grown factories start first) (later : Grown others start second)
    (included : factories ⊆ others) {question : Question}
    (unsupplied : first.Lacks question → ∀ factory ∈ others, ¬ factory.Supplies question)
    : Alike first second question := by
  cases question with
  | declares name =>
      exact contains_eq_of_supplied earlier.mem_declared later.mem_declared included unsupplied
  | hasModule name =>
      exact contains_eq_of_supplied earlier.mem_modules later.mem_modules included unsupplied
  | reexport home name => simp [Alike, namedReexport?, earlier.reexports, later.reexports]
  | globs home => simp [Alike, reexportedGlobs, earlier.reexports, later.reexports]

end Index

-----------------------------------------------------------------------------------------
-- Recorded types
-----------------------------------------------------------------------------------------

/-- A type that was answered was looked for in a scope of the index. -/
theorem Index.exists_scope {index : Index} {marked : Marked} {target : TypeName}
    (answered : index.ownerType? marked = some target)
    : ∃ scope, index.scopes[marked.scope]? = some scope := by
  unfold Index.ownerType? at answered
  split at answered
  · exact ⟨_, ‹_›⟩
  · contradiction

/-- More factories leave the types of a declaration as they are, unless one of them captures it. -/
theorem Index.Grown.types_eq {start first second : Index} {factories more : List Artifact}
    (earlier : Grown factories start first) (later : Grown (factories ++ more) start second)
    {marked : Marked} {target : TypeName} (answered : first.ownerType? marked = some target)
    (uncaptured : ∀ factory ∈ factories ++ more, ¬ factory.Captures first marked)
    : second.ownerType? marked = first.ownerType? marked
      ∧ second.parameterTypes? marked = first.parameterTypes? marked := by
  obtain ⟨scope, here⟩ := exists_scope answered
  have there : second.scopes[marked.scope]? = some scope := by
    rw [later.scopes, List.map_append, ← List.append_assoc, ← earlier.scopes]
    rw [List.getElem?_append_left (List.getElem?_eq_some_iff.mp here).1]
    exact here
  refine types_eq_of_alike here there rfl rfl fun question asked => ?_
  refine alike_of_grown earlier later (List.subset_append_left _ _) ?_
  intro lacks factory member supplies
  refine uncaptured factory member ⟨question, ?_, lacks, supplies⟩
  rw [Index.asked, here]
  exact asked

namespace Completes

variable {settings : Settings} {start : Index} {turns : List Turn} {generation : Generation}

/-- What a round has recorded still holds with all factories, unless one of them captures it. -/
theorem types_of_records (completes : Completes settings start turns generation) {turn : Turn}
    (member : turn ∈ turns) {marked : Marked} {injectable : Injectable}
    (records : turn.Records marked injectable)
    (uncaptured
      : ∀ factory ∈ turns.flatMap Turn.factories, ¬ factory.Captures turn.index marked)
    : (start.withFactories (turns.flatMap Turn.factories)).ownerType? marked
        = some injectable.target
      ∧ (start.withFactories (turns.flatMap Turn.factories)).parameterTypes? marked
        = some injectable.parameters := by
  obtain ⟨earlier, before, ⟨later, rfl⟩, course, _⟩ := completes.of_mem member
  have grown := Index.grown_withFactories start completes.made
  rw [List.flatMap_append] at grown uncaptured ⊢
  rw [List.filter_append, List.filter_eq_self.mpr course.read] at grown
  rw [← records.target, ← records.parameters]
  refine course.grown.types_eq grown records.target fun factory made => uncaptured factory ?_
  rcases List.mem_append.mp made with made | made
  · exact List.mem_append_left _ made
  · exact List.mem_append_right _ (List.mem_of_mem_filter made)

/-- A factory that can be read is declared in the index with all factories. -/
theorem declares_factory (completes : Completes settings start turns generation)
    {injectable : Injectable} (kept : injectable ∈ generation.injectables)
    (readable
      : (Source.Grammar.items? (Emission.factoryTokens injectable)).isSome = true)
    : (start.withFactories (turns.flatMap Turn.factories)).declares
        (Segments.within injectable.target.home injectable.factoryName)
      = true := by
  have accepted := completes.kept.injectables.mem_iff.mp kept
  obtain ⟨factory, member, made⟩ := exists_of_forall₂ completes.made accepted
  have grown := Index.grown_withFactories start completes.made
  refine List.contains_iff_mem.mpr (grown.mem_declared.mpr (.inr ⟨factory, ?_, ?_⟩))
  · refine List.mem_filter.mpr ⟨member, ?_⟩
    rw [Emission.ofText?_factory made]
    exact readable
  · exact Index.qualifiedName_of_factory? made

end Completes

-----------------------------------------------------------------------------------------
-- A whole run
-----------------------------------------------------------------------------------------

/-- A declaration that mentions only types declared beside it asks for nothing else. -/
theorem Index.Grown.exists_of_asked_beside {start index : Index} {factories : List Artifact}
    (grown : Grown factories start index) {marked : Marked} {scope : Scope}
    (here : start.scopes[marked.scope]? = some scope)
    (beside
      : ∀ path ∈ marked.paths, ∃ name ∈ path.segments,
          path = .single name ∧ Segments.within scope.home name ∈ start.declared)
    {question : Question} (asked : question ∈ index.asked marked)
    : ∃ name ∈ start.declared, question = .declares name := by
  have there : index.scopes[marked.scope]? = some scope := by
    rw [grown.scopes, List.getElem?_append_left (List.getElem?_eq_some_iff.mp here).1]
    exact here
  rw [Index.asked, there] at asked
  obtain ⟨path, member, asked⟩ := List.mem_flatMap.mp asked
  obtain ⟨name, _, rfl, known⟩ := beside path member
  have declared : index.declares (Segments.within scope.home name) = true :=
    List.contains_iff_mem.mpr (grown.mem_declared.mpr (.inl known))
  refine ⟨_, known, ?_⟩
  simp only [SpelledPath.single, askedForType, askedForName, declared, if_true] at asked
  split at asked
  · simp at asked
  · exact List.mem_singleton.mp asked

/-- A declaration that mentions only types declared beside it is never captured later on. -/
theorem Index.Grown.not_captures_of_beside {start index : Index} {factories : List Artifact}
    (grown : Grown factories start index) {factory : Artifact} {marked : Marked} {scope : Scope}
    (here : start.scopes[marked.scope]? = some scope)
    (beside
      : ∀ path ∈ marked.paths, ∃ name ∈ path.segments,
          path = .single name ∧ Segments.within scope.home name ∈ start.declared)
    : ¬ factory.Captures index marked := by
  rintro ⟨question, asked, lacks, _⟩
  obtain ⟨name, known, rfl⟩ := grown.exists_of_asked_beside here beside asked
  have declared : index.declares name = true :=
    List.contains_iff_mem.mpr (grown.mem_declared.mpr (.inl known))
  exact absurd (lacks.symm.trans declared) (by simp)

namespace Workplace

variable {σ : Type} {write : Writer σ} {settings : Settings} {index : Index} {store : σ}

/-- After a run that succeeds, every marked declaration has been recorded; and whatever has been recorded,
in whichever round, is what the index answers once all factories are sources too, unless one of them
captures the declaration.
-/
theorem run_types_settled {summary : Summary}
    (done : (run write ⟨{ settings }, index, store⟩).result = .ok summary)
    : ∃ turns generation,
        Completes settings index turns generation
        ∧ (run write ⟨{ settings }, index, store⟩).state.generation = generation
        ∧ (∀ marked ∈ index.marked, ∃ turn ∈ turns, ∃ injectable ∈ generation.injectables,
            turn.Records marked injectable)
        ∧ ∀ turn ∈ turns, ∀ marked injectable,
            turn.Records marked injectable
            → (∀ factory ∈ turns.flatMap Turn.factories, ¬ factory.Captures turn.index marked)
            → (index.withFactories (turns.flatMap Turn.factories)).ownerType? marked
                = some injectable.target
              ∧ (index.withFactories (turns.flatMap Turn.factories)).parameterTypes? marked
                = some injectable.parameters := by
  obtain ⟨turns, generation, _, completes, state, _⟩ := run_eq_ok done
  refine ⟨turns, generation, completes, state, fun marked present => ?_, ?_⟩
  · obtain ⟨turn, member, injectable, records⟩ := completes.exists_records present
    exact ⟨turn, member, injectable, completes.mem_injectables member records, records⟩
  · intro turn member marked injectable records uncaptured
    exact completes.types_of_records member records uncaptured

/-- Witness: neither factory captures a parameter of the client or the socket. -/
theorem run_types_settled_clientAndSocket
    : ∃ summary turns generation,
        (run MemoryStore.write ⟨{ settings := {} }, clientAndSocket, {}⟩).result = .ok summary
        ∧ Completes {} clientAndSocket turns generation
        ∧ ∀ marked ∈ clientAndSocket.marked, ∃ turn ∈ turns, ∃ injectable ∈ generation.injectables,
            turn.Records marked injectable
            ∧ (∀ factory ∈ turns.flatMap Turn.factories, ¬ factory.Captures turn.index marked)
            ∧ (clientAndSocket.withFactories (turns.flatMap Turn.factories)).parameterTypes? marked
              = some injectable.parameters := by
  obtain ⟨summary, done, _⟩ := run_clientAndSocket
  obtain ⟨turns, generation, completes, _, recorded, settled⟩ := run_types_settled done
  have besideEachOther : ∀ marked ∈ clientAndSocket.marked,
      clientAndSocket.scopes[marked.scope]? = some ⟨"crate::m", []⟩
      ∧ ∀ path ∈ marked.paths, ∃ name ∈ path.segments,
          path = .single name ∧ Segments.within "crate::m" name ∈ clientAndSocket.declared := by
    decide +kernel
  refine ⟨summary, turns, generation, done, completes, fun marked present => ?_⟩
  obtain ⟨turn, member, injectable, kept, records⟩ := recorded marked present
  have uncaptured (factory : Artifact) : ¬ factory.Captures turn.index marked := by
    obtain ⟨_, _, _, course, _⟩ := completes.of_mem member
    obtain ⟨here, beside⟩ := besideEachOther marked present
    exact course.grown.not_captures_of_beside here beside
  exact ⟨turn, member, injectable, kept, records, fun factory _ => uncaptured factory,
    (settled turn member marked injectable records fun factory _ => uncaptured factory).2⟩

/-- A lone parameter of a type declared beside the declaration has that type. -/
private theorem parameterTypes?_of_beside {index : Index} {marked : Marked} {scope : Scope}
    {parameter name : String} (here : index.scopes[marked.scope]? = some scope)
    (alone : marked.parameters = [⟨parameter, .shared (.single name)⟩]) (ordinary : name ≠ "Self")
    (declared : index.declares (Segments.within scope.home name) = true)
    : index.parameterTypes? marked
      = (TypeName.parse? (Segments.within scope.home name)).map fun type => [type] := by
  rw [parameterTypes?, here, alone]
  simp only [List.mapM_cons, List.mapM_nil, resolve?_of_beside ordinary declared]
  cases TypeName.parse? (Segments.within scope.home name) <;> rfl

/-- A client that is handed a factory which its module imports with everything else of another one,
and a socket beside it, whose own factory will have the name of the imported one.
-/
def clientAndImportedFactory : Index := {
  marker := "inject"
  scopes := [
    ⟨"crate::m", [.named "Arc" ⟨false, ["std", "sync", "Arc"]⟩, .glob ⟨false, ["crate", "other"]⟩]⟩,
    ⟨"crate::other", []⟩
  ]
  declared := ["crate::m::Client", "crate::m::Socket", "crate::other::SocketFactory"]
  modules := ["crate::m", "crate", "crate::other", "crate"]
  marked := [
    constructorOf "Client" [⟨"maker", .shared (.single "SocketFactory")⟩] 5,
    constructorOf "Socket" [] 6
  ]
  files := [⟨"src/m.rs"⟩, ⟨"src/other.rs"⟩]
}

/-- The client, over a type that it imports from another module. -/
private def clientOverImported : Injectable :=
  ⟨⟨"crate::m", "Client"⟩, "new", [⟨"crate::other", "SocketFactory"⟩], ⟨⟨"src/m.rs"⟩, 5⟩⟩

/-- The socket whose factory is named like that type. -/
private def socketBeside : Injectable :=
  ⟨⟨"crate::m", "Socket"⟩, "new", [], ⟨⟨"src/m.rs"⟩, 6⟩⟩

/-- Both settle at once. -/
private theorem run_clientAndImportedFactory
    : ∃ summary,
        (run MemoryStore.write ⟨{ settings := {} }, clientAndImportedFactory, {}⟩).result
          = .ok summary
        ∧ (run MemoryStore.write ⟨{ settings := {} }, clientAndImportedFactory, {}⟩).state.generation
          = ⟨{}, [clientOverImported, socketBeside],
              ["src/m.rs:5#Client::new", "src/m.rs:6#Socket::new"], [], 1⟩ :=
  SettlesAtOnce.run_eq_ok (by decide +kernel)

/-- The factory of the socket can be read. -/
private theorem socketBeside_readable
    : (Source.Grammar.items? (Emission.factoryTokens socketBeside)).isSome = true := by
  decide +kernel

/-- The factory of the socket takes the place of the imported one, and what was recorded for the client
no longer holds. The factory declares its type beside the client, which comes before what the client
imports.
-/
theorem run_types_captured
    : ∃ summary,
        (run MemoryStore.write ⟨{ settings := {} }, clientAndImportedFactory, {}⟩).result
          = .ok summary
        ∧ ∃ turns generation,
          Completes {} clientAndImportedFactory turns generation
          ∧ ∃ marked ∈ clientAndImportedFactory.marked, ∃ turn ∈ turns, ∃ injectable,
            turn.Records marked injectable
            ∧ (clientAndImportedFactory.withFactories
                (turns.flatMap Turn.factories)).parameterTypes? marked
              ≠ some injectable.parameters := by
  obtain ⟨summary, ran, state⟩ := run_clientAndImportedFactory
  obtain ⟨turns, generation, _, completes, same, _⟩ := run_eq_ok ran
  obtain rfl := same.symm.trans state
  let client := constructorOf "Client" [⟨"maker", .shared (.single "SocketFactory")⟩] 5
  have present : client ∈ clientAndImportedFactory.marked := List.mem_cons_self
  obtain ⟨turn, member, injectable, records⟩ := completes.exists_records present
  have recorded : injectable = clientOverImported := by
    have kept := completes.mem_injectables member records
    have line : injectable.location.line = 5 := congrArg Location.line records.location
    rcases List.mem_cons.mp kept with first | kept
    · exact first
    · rw [List.mem_singleton.mp kept] at line
      exact absurd line (by decide)
  refine ⟨summary, ran, turns, _, completes, client, present, turn, member, injectable, records, ?_⟩
  have declares := completes.declares_factory (List.mem_cons_of_mem _ (List.mem_singleton.mpr rfl))
    socketBeside_readable
  have scopes := (Index.grown_withFactories clientAndImportedFactory completes.made).scopes
  generalize clientAndImportedFactory.withFactories (turns.flatMap Turn.factories) = final
    at scopes declares ⊢
  have here : final.scopes[client.scope]? = clientAndImportedFactory.scopes[0]? := by
    rw [scopes]
    rfl
  rw [parameterTypes?_of_beside here rfl (by decide) declares, recorded]
  decide +kernel

end Workplace

end Wiring
