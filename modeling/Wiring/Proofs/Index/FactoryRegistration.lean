import Wiring.Proofs.Emission.Agreement
import Wiring.Proofs.Emission.FactorySources
import Wiring.Proofs.Index.Growth

/-! Factories as source files of their modules. Where the names of an injectable are identifiers, its
factory is read, whatever the index is, and registers one type and the modules that it stands in.
-/

namespace Wiring

open Source Source.Grammar Emission Segments

-----------------------------------------------------------------------------------------
-- Names that can be read
-----------------------------------------------------------------------------------------

/-- Whether the text is an identifier, and none that is reserved for other uses than in paths. -/
structure IsPathName (text : String) : Prop where
  token : Identifier.isToken text = true
  segment : isSegmentWord text = true

instance (text : String) : Decidable (IsPathName text) :=
  decidable_of_iff (Identifier.isToken text = true ∧ isSegmentWord text = true)
    ⟨fun ⟨token, word⟩ => ⟨token, word⟩, fun ⟨token, word⟩ => ⟨token, word⟩⟩

/-- Whether the segments of a type's module, and its name, can stand in a path. -/
structure IsPathType (type : TypeName) : Prop where
  home : ∀ segment ∈ split type.home, IsPathName segment
  name : IsPathName type.name

instance (type : TypeName) : Decidable (IsPathType type) :=
  decidable_of_iff ((∀ segment ∈ split type.home, IsPathName segment) ∧ IsPathName type.name)
    ⟨fun ⟨home, name⟩ => ⟨home, name⟩, fun ⟨home, name⟩ => ⟨home, name⟩⟩

namespace IsPathType

variable {type : TypeName}

/-- The module of such a type is a path. -/
theorem isPath_home (named : IsPathType type)
    : IsPath type.home :=
  fun segment member => (named.home segment member).token

/-- Its words are its segments, since it does not start with a separator. -/
theorem wordsOfPath_home (named : IsPathType type)
    : wordsOfPath type.home = split type.home := by
  rw [wordsOfPath, named.isPath_home.dropLeading_eq]

/-- So the type is spelled in identifiers. -/
theorem isSpelled (named : IsPathType type)
    : IsSpelled type where
  home := by
    rw [named.wordsOfPath_home]
    exact named.isPath_home
  name := named.name.token

/-- The printed path of the type can be read. -/
theorem all_isSegmentWord (named : IsPathType type)
    : (wordsOfPath type.qualified).all isSegmentWord = true := by
  have words : wordsOfPath type.qualified = split type.home ++ [type.name] := by
    rw [← named.wordsOfPath_home]
    exact wordsOfPath_within named.isSpelled.home named.isSpelled.name
  rw [words, List.all_eq_true]
  intro word member
  rcases List.mem_append.mp member with inHome | last
  · exact (named.home word inHome).segment
  · rw [List.mem_singleton.mp last]
    exact named.name.segment

end IsPathType

/-- Whether all that an injectable names can stand in code. -/
structure Injectable.IsNamed (injectable : Injectable) : Prop where
  target : IsPathType injectable.target
  constructor : IsPathName injectable.constructor
  parameters : ∀ type ∈ injectable.parameters, IsPathType type

instance (injectable : Injectable) : Decidable injectable.IsNamed :=
  decidable_of_iff
    (IsPathType injectable.target ∧ IsPathName injectable.constructor
      ∧ ∀ type ∈ injectable.parameters, IsPathType type)
    ⟨fun ⟨target, constructor, parameters⟩ => ⟨target, constructor, parameters⟩,
      fun ⟨target, constructor, parameters⟩ => ⟨target, constructor, parameters⟩⟩

/-- A descriptor of such types is spelled throughout. -/
theorem Injectable.IsNamed.allSpelled {injectable : Injectable} (named : injectable.IsNamed)
    : AllSpelled injectable where
  target := named.target.isSpelled
  named := named.constructor.token
  parameters := fun type member => (named.parameters type member).isSpelled

-----------------------------------------------------------------------------------------
-- The modules around a module
-----------------------------------------------------------------------------------------

namespace Segments

/-- There are at most as many segments as there are characters and one more, by the recursion that
splits.
-/
theorem length_splitChars_le (chars : List Char)
    : (splitChars chars).length ≤ chars.length + 1 := by
  fun_induction splitChars chars with
  | case1 => simp
  | case2 rest ih => simp only [List.length_cons]; omega
  | case3 char rest _ empty ih => simp
  | case4 char rest _ head tail found ih =>
      rw [found] at ih
      simp only [List.length_cons] at ih ⊢
      omega

/-- The same for a text. It bounds the modules above one. -/
theorem length_split_le (text : String)
    : (split text).length ≤ text.length + 1 := by
  rw [split, List.length_map, ← String.length_toList]
  exact length_splitChars_le text.toList

end Segments

namespace Index

/-- Whether the outer module is the other one, or the other one lies in it. -/
def IsAround (outer home : String) : Prop :=
  ∃ above, above ≠ [] ∧ above <+: split home ∧ outer = join above

/-- A single segment has no module above it. -/
theorem lineage_of_single {name : String} (single : IsSingle name) (fuel : Nat)
    : lineage fuel name = [name] := by
  cases fuel with
  | zero => rfl
  | succ fuel =>
      have whole : splitLast? name = none := by
        rw [splitLast?, splitLastChars_eq_none single]
        rfl
      rw [lineage, whole]

/-- The lineage of a module is what lies around it, by induction on the segments from the last one on. -/
theorem mem_lineage_join {segments : List String} (some : segments ≠ [])
    (single : ∀ segment ∈ segments, IsSingle segment) {fuel : Nat}
    (enough : segments.length ≤ fuel + 1) (outer : String)
    : outer ∈ lineage fuel (join segments)
      ↔ ∃ above, above ≠ [] ∧ above <+: segments ∧ outer = join above := by
  induction segments using List.reverseRecOn generalizing fuel with
  | nil => contradiction
  | append_singleton home name ih =>
      obtain ⟨homes, last⟩ := List.forall_mem_append.mp single
      have last : IsSingle name := last name List.mem_cons_self
      simp only [List.prefix_concat_iff]
      by_cases lone : home = []
      · have alone : join [name] = name := Text.joinWith_singleton ..
        rw [lone, List.nil_append, alone, lineage_of_single last]
        constructor
        · rintro inside
          exact ⟨[name], by simp, .inl rfl, by rw [alone, List.mem_singleton.mp inside]⟩
        · rintro ⟨above, some, rfl | none, rfl⟩
          · exact List.mem_singleton.mpr alone
          · exact absurd (List.prefix_nil.mp none) some
      · obtain ⟨fuel, rfl⟩ : ∃ less, fuel = less + 1 := by
          have positive := List.length_pos_iff.mpr lone
          rw [List.length_append, List.length_singleton] at enough
          exact ⟨fuel - 1, by omega⟩
        have parts : splitLast? (join (home ++ [name])) = .some (join home, name) := by
          rw [join_append_singleton lone, splitLast?_within _ last]
        have fewer : home.length ≤ fuel + 1 := by simpa using enough
        have further := ih lone homes fewer
        rw [lineage, parts]
        simp only [List.mem_cons, further]
        constructor
        · rintro (rfl | ⟨above, some, inHome, rfl⟩)
          · exact ⟨home ++ [name], by simp, .inl rfl, rfl⟩
          · exact ⟨above, some, .inr inHome, rfl⟩
        · rintro ⟨above, some, rfl | inHome, rfl⟩
          · exact .inl rfl
          · exact .inr ⟨above, some, inHome, rfl⟩

/-- A module is registered together with all that lies around it, and with nothing else. -/
theorem mem_lineage_iff {home : String} (path : IsPath home) (outer : String)
    : outer ∈ lineage home.length home ↔ IsAround outer home := by
  have segments := mem_lineage_join (split_ne_nil home) path.isSingle (length_split_le home) outer
  rwa [join_split] at segments

-----------------------------------------------------------------------------------------
-- Factories in an index
-----------------------------------------------------------------------------------------

/-- Where derived traits are no marker, the items of a factory declare its type and mark nothing. The
one attribute is the derivation, and the function has none.
-/
theorem addParsed_factory (index : Index) (unmarked : index.marker ≠ "derive") (file : FilePath)
    (home name : String) (owner : TypePath) (signature : Signature)
    : index.addParsed file home
        [.type [derives] .struct name 2,
          .implementation [] ⟨false, false, some owner, [.function [] signature]⟩]
      = { index with
          declared := index.declared ++ [within home name]
          modules := index.modules ++ lineage home.length home
          scopes := index.scopes ++ [⟨home, []⟩]
          files := index.files ++ [file] } := by
  have declares : Item.isTestOnly (.type [derives] .struct name 2) = false := rfl
  have implements
      : Item.isTestOnly
          (.implementation [] ⟨false, false, some owner, [.function [] signature]⟩) = false :=
    rfl
  have plain : carries index.marker [derives] = false := by
    simp [carries, derives, unmarked.symm]
  simp only [addParsed, addItems, addItem, declares, implements, Bool.false_eq_true, if_false,
    foldl_addMember_plain, markOther]
  rw [if_neg]
  · rfl
  · exact Bool.eq_false_iff.mp plain

/-- Where its names are identifiers, the factory of an injectable is generated and is a source text of
its module. Adding it to an index, of any marker but that for derived traits, declares its type and does
no more than that: the module and those around it are modules, and the file has one scope without imports.
-/
theorem add_named_factory (index : Index) (unmarked : index.marker ≠ "derive")
    {injectable : Injectable} (named : injectable.IsNamed)
    : ∃ factory added,
        factory? injectable = some factory
        ∧ index.add factory.source
          = .ok
              { index with
                declared :=
                  index.declared ++ [within injectable.target.home (injectable.target.name ++ "Factory")]
                modules := index.modules ++ added
                scopes := index.scopes ++ [⟨injectable.target.home, []⟩]
                files := index.files ++ [factory.relativePath] }
        ∧ ∀ outer, outer ∈ added ↔ IsAround outer injectable.target.home := by
  obtain ⟨factory, made⟩ := named.allSpelled.exists_factory?
  obtain ⟨items, read⟩ := exists_items?_factoryTokens named.target.all_isSegmentWord
    fun type member => (named.parameters type member).all_isSegmentWord
  obtain ⟨signature, rfl⟩ := items?_factoryTokens read
  refine ⟨factory, _, made, ?_, mem_lineage_iff named.target.isPath_home⟩
  rw [add_factory index made read, addParsed_factory index unmarked, Artifact.source,
    home_of_factory? made]
  rfl

/-- Witness: the factories of a repository and a client, added to an empty index. -/
theorem add_named_factory_repositoryAndClient
    : "inject" ≠ "derive"
      ∧ (∀ injectable ∈ repositoryAndClient, injectable.IsNamed)
      ∧ ∀ injectable ∈ repositoryAndClient,
          ∃ factory added,
            factory? injectable = some factory
            ∧ Index.add { marker := "inject" } factory.source
              = .ok {
                  marker := "inject"
                  declared := [within injectable.target.home (injectable.target.name ++ "Factory")]
                  modules := added
                  scopes := [⟨injectable.target.home, []⟩]
                  files := [factory.relativePath]
                }
            ∧ ∀ outer, outer ∈ added ↔ IsAround outer injectable.target.home := by
  have unmarked : "inject" ≠ "derive" := by decide
  have named : ∀ injectable ∈ repositoryAndClient, injectable.IsNamed := by decide +kernel
  exact ⟨unmarked, named, fun injectable member =>
    add_named_factory { marker := "inject" } unmarked (named injectable member)⟩

end Index

end Wiring
