import Wiring.Proofs.Index.CrateInternal
import Wiring.Source.Grammar.Tokens

/-! What a name stands for that an import binds. An imported path is read in its module as if nothing were
imported there, and so are the paths below the name. A path that is written out is read with the imports
of the scope, and this makes a difference exactly where another import binds its first segment.
-/

namespace Wiring

open Segments

/-- The words that a path may begin with and that no import binds. -/
def SpelledPath.keywords : List String :=
  ["crate", "self", "super"]

/-- The keywords of paths are words that the grammar admits in them. -/
theorem SpelledPath.keywords_subset : keywords ⊆ Source.Grammar.pathWords := by
  simp [keywords, Source.Grammar.pathWords]

/-- The module of a scope without any imports. -/
def Scope.bare (scope : Scope) : Scope :=
  { scope with imports := [] }

/-- Whether no import of the scope binds the first segment of a path that is written in it. -/
def Scope.ReadsPlainly (scope : Scope) (path : SpelledPath) : Prop :=
  path.rooted = true
    ∨ ∀ first ∈ path.segments.head?, first ∈ SpelledPath.keywords ∨ scope.path? first = none

namespace Index

variable {index : Index} {scope : Scope} {owner : Option TypeName} {path : SpelledPath}

-----------------------------------------------------------------------------------------
-- Paths of several segments
-----------------------------------------------------------------------------------------

/-- Behind `::`, the path is that of a type of another crate. -/
theorem qualify?_of_rooted (spelled : path.Named) (rooted : path.rooted = true)
    (proper : ¬path.IsRootedInCrate) (home : String)
    : index.qualify? home path = TypeName.parse? (join path.segments) := by
  have outside : isInCrate (join path.segments) = false := by
    apply Bool.of_not_eq_true
    intro inside
    exact proper ⟨rooted, head?_of_isInCrate_join spelled inside⟩
  have leads : index.absolute? home path = some (join path.segments) := by
    rw [absolute?, if_pos rooted]
  simp [qualify?, leads, outside]

/-- Where no import binds the first segment of several, they are qualified as they stand. -/
theorem resolve?_of_unbound {first second : String} {below : List String}
    (plain : first ∈ SpelledPath.keywords ∨ scope.path? first = none)
    : index.resolve? scope owner ⟨false, first :: second :: below⟩
      = index.qualify? scope.home ⟨false, first :: second :: below⟩ := by
  rcases plain with keyword | unbound
  · have reserved : ["crate", "self", "super"].contains first = true :=
      List.contains_iff_mem.mpr keyword
    simp only [resolve?, Bool.false_eq_true, if_false, reserved, if_true]
    split <;> rfl
  · simp only [resolve?, Bool.false_eq_true, if_false, unbound]

/-- A path of several segments whose first one no import binds is qualified as it stands. -/
theorem resolve?_of_readsPlainly (long : 2 ≤ path.segments.length) (spelled : path.Named)
    (proper : ¬path.IsRootedInCrate) (plain : scope.ReadsPlainly path)
    : index.resolve? scope owner path = index.qualify? scope.home path := by
  obtain ⟨rooted, segments⟩ := path
  cases rooted with
  | true =>
      rw [qualify?_of_rooted spelled rfl proper]
      simp only [resolve?, if_true]
  | false =>
      rcases segments with _ | ⟨first, _ | ⟨second, below⟩⟩
      · simp at long
      · simp at long
      · rcases plain with contrary | plain
        · contradiction
        · exact resolve?_of_unbound (plain first rfl)

/-- Otherwise the first segment stands for what is imported under it. -/
theorem resolve?_of_binding {first second : String} {below : List String} {base : SpelledPath}
    (bound : scope.path? first = some base) (ordinary : first ∉ SpelledPath.keywords)
    : index.resolve? scope owner ⟨false, first :: second :: below⟩
      = index.qualify? scope.home (base.extend (second :: below)) := by
  have unreserved : ["crate", "self", "super"].contains first = false := by
    apply Bool.of_not_eq_true
    intro keyword
    exact ordinary (List.contains_iff_mem.mp keyword)
  simp only [resolve?, Bool.false_eq_true, if_false, bound, unreserved]

/-- The name itself and the paths below it lead where the import leads. -/
theorem resolve?_of_import {name : String} (found : scope.path? name = some path)
    (undeclared : index.declares (within scope.home name) = false)
    (ordinary : name ∉ Source.Grammar.pathWords) (rest : List String)
    : index.resolve? scope owner ⟨false, name :: rest⟩
      = index.qualify? scope.home (path.extend rest) := by
  have unreserved : name ∉ SpelledPath.keywords :=
    fun keyword => ordinary (SpelledPath.keywords_subset keyword)
  cases rest with
  | nil =>
      have other : name ≠ "Self" := by
        intro same
        subst same
        simp [Source.Grammar.pathWords] at ordinary
      have whole : path.extend [] = path := by simp [SpelledPath.extend]
      simp [resolve?, resolveName?, other, undeclared, found, whole]
  | cons second below => exact resolve?_of_binding found unreserved

-----------------------------------------------------------------------------------------
-- Imports of a scope
-----------------------------------------------------------------------------------------

/-- A scope without imports reads all paths plainly. -/
theorem readsPlainly_bare (scope : Scope) (path : SpelledPath)
    : scope.bare.ReadsPlainly path :=
  .inr fun _ _ => .inr rfl

/-- Segments below a path leave its first segment as it is. -/
theorem head?_extend (long : 2 ≤ path.segments.length) (rest : List String)
    : (path.extend rest).segments.head? = path.segments.head? := by
  apply List.head?_append_of_ne_nil
  intro empty
  simp [empty] at long

/-- A path whose first segment is neither a keyword nor a module below `home` is that of a type of another
crate.
-/
theorem qualify?_of_foreign {home first : String} {below : List String}
    (spelled : SpelledPath.Named ⟨false, first :: below⟩) (ordinary : first ∉ SpelledPath.keywords)
    (foreign : within home first ∉ index.modules)
    : index.qualify? home ⟨false, first :: below⟩ = TypeName.parse? (join (first :: below)) := by
  have unreserved : first ≠ "crate" ∧ first ≠ "self" ∧ first ≠ "super" := by
    simpa [SpelledPath.keywords] using ordinary
  have leads
      : index.absolute? home ⟨false, first :: below⟩ = some (join (first :: below)) := by
    simp [absolute?, unreserved, foreign]
  have outside : isInCrate (join (first :: below)) = false := by
    apply Bool.of_not_eq_true
    intro inside
    exact unreserved.1 (Option.some.inj (head?_of_isInCrate_join spelled inside))
  simp [qualify?, leads, outside]

/-- A name stands for the path that is imported under it, and paths below the name for paths below that
path. The imported path is read as in the same module without imports. Hence it is all one whether the
name or the path is written, unless another import binds the first segment of the path. Then only the
path that is written out follows that import; the imported path leads out of the crate if no module of
its own has the name. The import is qualified as it stands, without a look at what the scope imports; a
path that is written looks its first segment up.
-/
theorem resolve?_import_exact {name : String} (found : scope.path? name = some path)
    (long : 2 ≤ path.segments.length) (undeclared : index.declares (within scope.home name) = false)
    (ordinary : name ∉ Source.Grammar.pathWords) {rest : List String}
    (spelled : (path.extend rest).Named) (proper : ¬path.IsRootedInCrate)
    : index.resolve? scope owner ⟨false, name :: rest⟩
        = index.resolve? scope.bare owner (path.extend rest)
      ∧ (scope.ReadsPlainly path
        → index.resolve? scope owner ⟨false, name :: rest⟩
          = index.resolve? scope owner (path.extend rest))
      ∧ ∀ first below base,
          path = ⟨false, first :: below⟩
          → scope.path? first = some base
          → first ∉ SpelledPath.keywords
          → index.resolve? scope owner (path.extend rest)
              = index.qualify? scope.home (base.extend (below ++ rest))
            ∧ (within scope.home first ∉ index.modules
              → index.resolve? scope owner ⟨false, name :: rest⟩
                = TypeName.parse? (join (first :: below ++ rest))) := by
  have leads
      : index.resolve? scope owner ⟨false, name :: rest⟩
        = index.qualify? scope.home (path.extend rest) :=
    resolve?_of_import found undeclared ordinary rest
  have longer : 2 ≤ (path.extend rest).segments.length := by
    rw [SpelledPath.extend, List.length_append]
    exact Nat.le_add_right_of_le long
  have same := head?_extend long rest
  have proper : ¬(path.extend rest).IsRootedInCrate := by
    rw [SpelledPath.IsRootedInCrate, same]
    exact proper
  refine ⟨?_, fun plain => ?_, fun first below base shape bound reserved => ⟨?_, fun foreign => ?_⟩⟩
  · rw [leads, resolve?_of_readsPlainly longer spelled proper (readsPlainly_bare scope _)]
    rfl
  · have plain : scope.ReadsPlainly (path.extend rest) := by
      rw [Scope.ReadsPlainly, same]
      exact plain
    rw [leads, resolve?_of_readsPlainly longer spelled proper plain]
  · subst shape
    obtain ⟨second, more, rfl⟩ := List.exists_cons_of_length_pos (Nat.lt_of_succ_lt_succ long)
    exact resolve?_of_binding bound reserved
  · subst shape
    rw [leads]
    exact qualify?_of_foreign spelled reserved foreign

/-- An index of two modules, one of which declares a type. -/
private def twoModules : Index :=
  {
    marker := "inject"
    declared := ["crate::net::Client"]
    modules := ["crate", "crate::net", "crate::repo"]
  }

/-- A module that is imported under another name, and a type below that name. The imported path starts
with a keyword, so it is read plainly.
-/
theorem resolve?_import_exact_renamed
    : let scope : Scope := ⟨"crate::repo", [.named "n" ⟨false, ["crate", "net"]⟩]⟩
      scope.path? "n" = some ⟨false, ["crate", "net"]⟩
        ∧ scope.ReadsPlainly ⟨false, ["crate", "net"]⟩
        ∧ twoModules.resolve? scope none ⟨false, ["n", "Client"]⟩
          = twoModules.resolve? scope none ⟨false, ["crate", "net", "Client"]⟩
        ∧ twoModules.resolve? scope none ⟨false, ["crate", "net", "Client"]⟩
          = some ⟨"crate::net", "Client"⟩ := by
  intro scope
  have found : scope.path? "n" = some ⟨false, ["crate", "net"]⟩ := rfl
  have plain : scope.ReadsPlainly ⟨false, ["crate", "net"]⟩ := by
    apply Or.inr
    simp [SpelledPath.keywords]
  have spelled : (SpelledPath.extend ⟨false, ["crate", "net"]⟩ ["Client"]).Named := by
    simp only [SpelledPath.Named, SpelledPath.extend]
    decide
  have undeclared : twoModules.declares (within "crate::repo" "n") = false := by decide
  have ordinary : "n" ∉ Source.Grammar.pathWords := by decide
  have proper : ¬SpelledPath.IsRootedInCrate ⟨false, ["crate", "net"]⟩ := by decide
  obtain ⟨_, alike, _⟩ :=
    @resolve?_import_exact twoModules scope none _ _ found (Nat.le_refl 2) undeclared ordinary _ spelled
      proper
  exact ⟨found, plain, alike plain, by decide +kernel⟩

/-- Where a module is imported and a type through it, the name of the type leads out of the crate, though
the imported path that is written out leads to the declaration.
-/
theorem resolve?_throughImportedModule
    : let scope : Scope :=
        ⟨"crate::repo",
          [.named "net" ⟨false, ["crate", "net"]⟩, .named "Client" ⟨false, ["net", "Client"]⟩]⟩
      scope.path? "Client" = some ⟨false, ["net", "Client"]⟩
        ∧ twoModules.declares (within scope.home "Client") = false
        ∧ twoModules.resolve? scope none (.single "Client") = some ⟨"net", "Client"⟩
        ∧ twoModules.resolve? scope none ⟨false, ["net", "Client"]⟩ = some ⟨"crate::net", "Client"⟩ :=
  ⟨rfl, by decide, by decide +kernel, by decide +kernel⟩

end Index

end Wiring
