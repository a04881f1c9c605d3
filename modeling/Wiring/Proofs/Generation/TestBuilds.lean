import Wiring.Proofs.Generation.Accounting
import Wiring.Proofs.Index.LiveItems

/-! What a generation does with code that is compiled in test builds alone. It takes nothing from items
that are test-only in their own file; but it takes all else of every file, also where the module of the
file is declared for test builds only.
-/

namespace Wiring

open Index Source

/-- Whether the item declares a module of the name, with a file of its own, for test builds alone. -/
def Source.Item.isTestFileModule (name : String) : Item → Bool
  | .fileModule attributes declared => declared = name && Source.isTestOnly attributes
  | _ => false

namespace Completes

variable {settings : Settings} {start : Index} {turns : List Turn} {generation : Generation}

/-- The injectables of a generation are made by the marked declarations it began with. -/
theorem hasMarked_iff (completes : Completes settings start turns generation) {name : String}
    {location : Location}
    : (∃ home, start.HasMarked home name location)
      ↔ ∃ injectable ∈ generation.injectables,
          injectable.constructor = name ∧ injectable.location = location := by
  constructor
  · rintro ⟨home, marked, present, rfl, rfl, rfl⟩
    obtain ⟨turn, member, injectable, records⟩ := completes.exists_records present
    exact ⟨injectable, completes.mem_injectables member records, records.constructor,
      records.location⟩
  · rintro ⟨injectable, kept, rfl, rfl⟩
    obtain ⟨marked, present, _, _, records⟩ := completes.exists_declaration kept
    exact ⟨marked.home, marked, present, rfl, records.constructor.symm, records.location.symm⟩

end Completes

namespace Workplace

variable {σ : Type} {write : Writer σ} {settings : Settings} {marker : String}
  {sources : List SourceFile} {store : σ}

/-- The types declared, the marked declarations, and after a run that succeeds the injectables and
their factories, are those of what stands in the files with no test-only item of the file around it.
Each file scans the same declarations into the index, and a run that succeeds records all that are
marked.
-/
theorem run_outside_test_items
    (readable : ∀ source ∈ sources, (Item.ofText? source.content).isSome = true)
    : (∀ qualified,
          qualified ∈ (ofSources marker sources).declared
          ↔ ∃ source ∈ sources, source.Declares qualified)
      ∧ (∀ home name location,
          (ofSources marker sources).HasMarked home name location
          ↔ ∃ source ∈ sources, source.HasMarked marker home name location)
      ∧ ∀ summary,
          (run write ⟨{ settings }, ofSources marker sources, store⟩).result = .ok summary
          → ∃ turns generation component,
              Completes settings (ofSources marker sources) turns generation
              ∧ Written write store (turns.flatMap Turn.factories ++ [component])
                  (run write ⟨{ settings }, ofSources marker sources, store⟩).state.store
              ∧ (∀ name location,
                  (∃ injectable ∈ generation.injectables,
                    injectable.constructor = name ∧ injectable.location = location)
                  ↔ ∃ source ∈ sources, ∃ home, source.HasMarked marker home name location)
              ∧ ∀ factory ∈ turns.flatMap Turn.factories,
                  ∃ injectable ∈ generation.injectables,
                    Emission.factory? injectable = some factory := by
  obtain ⟨declared, marked⟩ := takeEach_scans { marker } readable
  have hasMarked (home name : String) (location : Location)
      : (ofSources marker sources).HasMarked home name location
        ↔ ∃ source ∈ sources, source.HasMarked marker home name location := by
    rw [ofSources, marked]
    simp [Index.HasMarked]
  refine ⟨fun qualified => by simp [ofSources, declared], hasMarked, fun summary done => ?_⟩
  obtain ⟨turns, generation, component, completes, _, _, written, _⟩ := run_eq_ok done
  refine ⟨turns, generation, component, completes, written, fun name location => ?_,
    fun factory member => completes.exists_injectable member⟩
  rw [← completes.hasMarked_iff]
  constructor
  · rintro ⟨home, found⟩
    obtain ⟨source, member, marks⟩ := (hasMarked home name location).mp found
    exact ⟨source, member, home, marks⟩
  · rintro ⟨source, member, home, marks⟩
    exact ⟨home, (hasMarked home name location).mpr ⟨source, member, marks⟩⟩

/-- A file with a constructor in a module that stands in it for test builds, and one outside. -/
private def fileWithTests : SourceFile :=
  ⟨⟨"src/lib.rs"⟩, "crate",
    "#[cfg(test)]mod t{struct F;impl F{#[inject]fn new()->Self{F}}}struct G;impl G{#[inject]fn new()->Self{G}}"⟩

/-- A constructor on the first line of a file. -/
private def constructorInFile (path home owner : String) (scope : Nat) : Marked :=
  { constructorOf owner [] 1 with location := ⟨⟨path⟩, 1⟩, home, scope }

/-- What is left of the file without its tests. -/
private def indexOutsideTests : Index := {
  marker := "inject"
  scopes := [⟨"crate", []⟩]
  declared := ["crate::G"]
  modules := ["crate"]
  marked := [constructorInFile "src/lib.rs" "crate" "G" 0]
  files := [⟨"src/lib.rs"⟩]
}

/-- The index of the file. -/
private theorem ofSource_fileWithTests
    : ofSource "inject" fileWithTests = indexOutsideTests := by
  rw [fileWithTests, ofSource_ofList]
  decide +kernel

/-- Witness: the type outside the tests is recorded, and the one inside is not declared. -/
theorem run_outside_test_items_fileWithTests
    : ∃ summary turns generation,
        (run MemoryStore.write ⟨{ settings := {} }, ofSources "inject" [fileWithTests], {}⟩).result
          = .ok summary
        ∧ Completes {} (ofSources "inject" [fileWithTests]) turns generation
        ∧ fileWithTests.Declares "crate::G"
        ∧ ¬ fileWithTests.Declares "crate::t::F"
        ∧ ∀ injectable ∈ generation.injectables, ∃ home,
            fileWithTests.HasMarked "inject" home injectable.constructor injectable.location := by
  have readable : ∀ source ∈ [fileWithTests], (Item.ofText? source.content).isSome = true := by
    refine List.forall_mem_singleton.mpr ?_
    have opened : (ofSource "inject" fileWithTests).scopes ≠ [] := by
      simp [ofSource_fileWithTests, indexOutsideTests]
    exact isSome_of_scopes_ofSource opened
  have index : ofSources "inject" [fileWithTests] = indexOutsideTests := by
    rw [ofSources_eq_foldl readable]
    simp only [List.map_cons, List.map_nil, ofSource_fileWithTests]
    rfl
  have settles
      : SettlesAtOnce indexOutsideTests
          ⟨{}, [⟨⟨"crate", "G"⟩, "new", [], ⟨⟨"src/lib.rs"⟩, 1⟩⟩], ["src/lib.rs:1#G::new"], [], 1⟩ := by
    decide +kernel
  obtain ⟨summary, done, _⟩ := settles.run_eq_ok
  rw [← index] at done
  obtain ⟨declared, _, ran⟩ :=
    @run_outside_test_items _ MemoryStore.write {} "inject" _ {} readable
  obtain ⟨turns, generation, _, completes, _, recorded, _⟩ := ran summary done
  refine ⟨summary, turns, generation, done, completes, ?_, ?_, fun injectable kept => ?_⟩
  · obtain ⟨source, member, declares⟩ := (declared "crate::G").mp (by simp [index, indexOutsideTests])
    rwa [List.mem_singleton.mp member] at declares
  · intro declares
    have found := (declared "crate::t::F").mpr ⟨_, List.mem_singleton.mpr rfl, declares⟩
    simp [index, indexOutsideTests] at found
  · obtain ⟨source, member, home, marks⟩ :=
      (recorded injectable.constructor injectable.location).mp ⟨injectable, kept, rfl, rfl⟩
    rw [List.mem_singleton.mp member] at marks
    exact ⟨home, marks⟩

/-- A root that declares a module for tests. -/
private def testModuleRoot : SourceFile :=
  ⟨⟨"src/lib.rs"⟩, "crate", "#[cfg(test)]mod f;"⟩

/-- The file of that module, which says nothing of tests. -/
private def testModuleFile : SourceFile :=
  ⟨⟨"src/f.rs"⟩, "crate::f", "struct F;impl F{#[inject]fn new()->Self{F}}"⟩

/-- The index of both files. -/
private def testModuleIndex : Index := {
  marker := "inject"
  scopes := [⟨"crate", []⟩, ⟨"crate::f", []⟩]
  declared := ["crate::f::F"]
  modules := ["crate", "crate::f", "crate"]
  marked := [constructorInFile "src/f.rs" "crate::f" "F" 1]
  files := [⟨"src/lib.rs"⟩, ⟨"src/f.rs"⟩]
}

/-- What is recorded of the constructor. -/
private def testInjectable : Injectable :=
  ⟨⟨"crate::f", "F"⟩, "new", [], ⟨⟨"src/f.rs"⟩, 1⟩⟩

/-- Both files make up that index. -/
private theorem ofSources_testModule
    : ofSources "inject" [testModuleRoot, testModuleFile] = testModuleIndex := by
  decide +kernel

/-- A file whose module is declared for test builds alone is looked at all the same: its type is
declared, its constructor marked, and the factory of the type made. The item that declares the module
adds nothing, and the file is read on its own.
-/
theorem run_testModuleFile
    : ∃ root file name type,
        (Item.ofText? root.content).any (·.any (Item.isTestFileModule name)) = true
        ∧ file.home = Segments.within root.home name
        ∧ Segments.within file.home type ∈ (ofSources "inject" [root, file]).declared
        ∧ (∃ marked ∈ (ofSources "inject" [root, file]).marked, marked.location.file = file.path)
        ∧ ∃ summary turns generation,
          (run MemoryStore.write ⟨{ settings := {} }, ofSources "inject" [root, file], {}⟩).result
            = .ok summary
          ∧ Completes {} (ofSources "inject" [root, file]) turns generation
          ∧ (∃ injectable ∈ generation.injectables, injectable.location.file = file.path)
          ∧ ∃ factory ∈ turns.flatMap Turn.factories, factory.origins.sources = [file.path] := by
  have settles
      : SettlesAtOnce testModuleIndex ⟨{}, [testInjectable], ["src/f.rs:1#F::new"], [], 1⟩ := by
    decide +kernel
  obtain ⟨summary, done, state⟩ := settles.run_eq_ok
  have marked : constructorInFile "src/f.rs" "crate::f" "F" 1 ∈ testModuleIndex.marked :=
    List.mem_cons_self
  rw [← ofSources_testModule] at done state marked
  obtain ⟨turns, _, _, completes, same, _⟩ := run_eq_ok done
  obtain rfl := same.symm.trans state
  have kept : testInjectable ∈ [testInjectable] := List.mem_singleton.mpr rfl
  obtain ⟨factory, member, made⟩ :=
    exists_of_forall₂ completes.made (completes.kept.injectables.mem_iff.mp kept)
  refine ⟨testModuleRoot, testModuleFile, "f", "F", by decide +kernel, by decide +kernel, ?_,
    ⟨_, marked, rfl⟩, summary, turns, _, done, completes, ⟨_, kept, rfl⟩, factory, member, ?_⟩
  · rw [ofSources_testModule]
    exact List.mem_singleton.mpr (by decide +kernel)
  · rw [origins_of_factory? made]
    rfl

end Workplace

end Wiring
