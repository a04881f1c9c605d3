import Wiring.Proofs.Answers
import Wiring.Proofs.Index.Reexports
import Wiring.Proofs.Text.Segments

/-! What a type owes its name to. Each way of resolving a path ends in the path itself, in the owner, in
a declaration, in a path that leads out of the crate, or in the prelude.
-/

namespace Wiring.Index

variable {index : Index} {scope : Scope} {owner : Option TypeName} {path : SpelledPath}
  {type : TypeName}

-----------------------------------------------------------------------------------------
-- Absolute forms
-----------------------------------------------------------------------------------------

/-- Climbing leaves the outer segments of the module, and the last segments of the path. -/
theorem climb_suffix {module segments above rest : List String}
    (climbed : climb module segments = some (above, rest)) (some : module ≠ [])
    : above ≠ [] ∧ above <:+ module ∧ rest <:+ segments := by
  fun_induction climb module segments with
  | case1 segments inner outer more ih =>
      obtain ⟨nonempty, inside, behind⟩ := ih climbed (by simp)
      exact ⟨nonempty, inside.trans (List.suffix_cons _ _), behind.trans (List.suffix_cons _ _)⟩
  | case2 => contradiction
  | case3 =>
      obtain ⟨rfl, rfl⟩ := Prod.mk.inj (Option.some.inj climbed)
      exact ⟨some, List.suffix_refl _, List.suffix_refl _⟩

/-- An absolute form is the path itself, or stands below outer segments of the module, by the first
segment: a keyword leads to the module or upwards, and a module of that name below.
-/
theorem absolute?_eq_some {home text : String} (found : index.absolute? home path = some text)
    : text = Segments.join path.segments
      ∨ ∃ outer rest,
          outer ≠ [] ∧ outer <+: Segments.split home ∧ rest <:+ path.segments
            ∧ text = Segments.join (Segments.join outer :: rest) := by
  have below {rest : List String} (last : rest <:+ path.segments)
      : ∃ outer more,
          outer ≠ [] ∧ outer <+: Segments.split home ∧ more <:+ path.segments
            ∧ Segments.join (home :: rest) = Segments.join (Segments.join outer :: more) :=
    ⟨Segments.split home, rest, Segments.split_ne_nil home, List.prefix_refl _, last, by
      rw [Segments.join_split]⟩
  unfold absolute? at found
  split at found
  · exact .inl (Option.some.inj found).symm
  · split at found
    · contradiction
    · rename_i first rest same
      split at found
      · exact .inl (Option.some.inj found).symm
      · split at found
        · obtain rfl := Option.some.inj found
          exact .inr (below (same ▸ List.suffix_cons first rest))
        · split at found
          · obtain ⟨⟨above, behind⟩, climbed, rfl⟩ := Option.map_eq_some_iff.mp found
            obtain ⟨some, inside, last⟩ :=
              climb_suffix climbed (by simpa using Segments.split_ne_nil home)
            exact .inr ⟨above.reverse, behind, by simpa using some,
              List.reverse_suffix.mp (by simpa using inside), last, rfl⟩
          · split at found
            · obtain rfl := Option.some.inj found
              exact .inr (below (List.suffix_refl _))
            · exact .inl (Option.some.inj found).symm

-----------------------------------------------------------------------------------------
-- Types
-----------------------------------------------------------------------------------------

/-- The paths that are made absolute for a path in the scope, and the modules that they stand in: the path
itself, an import of the scope with segments of the path below it, and all that is imported publicly.
-/
inductive Written (index : Index) (scope : Scope) (path : SpelledPath) : String → SpelledPath → Prop
  | itself : Written index scope path scope.home path
  | imported {name : String} {base : SpelledPath} {rest : List String}
      (found : scope.path? name = some base) (below : rest ⊆ path.segments)
      : Written index scope path scope.home (base.extend rest)
  | reexported {home name : String} {written : SpelledPath}
      (found : index.namedReexport? home name = some written)
      : Written index scope path home written

/-- What the type at a path in the scope can come from. -/
inductive Origin (index : Index) (scope : Scope) (owner : Option TypeName) (path : SpelledPath)
    (type : TypeName) : Prop
  | rooted (rooted : path.rooted = true)
      (read : TypeName.parse? (Segments.join path.segments) = some type)
  | owner (self : path = .single "Self") (same : owner = some type)
  | declaration {text : String} (declared : index.declares text = true)
      (read : TypeName.parse? text = some type)
  | outside {home text : String} {written : SpelledPath}
      (stands : Written index scope path home written)
      (leads : index.absolute? home written = some text) (outside : isInCrate text = false)
      (read : TypeName.parse? text = some type)
  | prelude {name : String} (found : prelude.lookup name = some type)

/-- Public imports lead to declarations and out of the crate. -/
theorem Origin.of_declaration? {hops : Nat} {start text : String}
    (found : index.declaration? hops start = some text) (read : TypeName.parse? text = some type)
    : Origin index scope owner path type := by
  rcases (route_of_declaration? found).1 with declared | ⟨outside, _, hop⟩
  · exact .declaration declared read
  · obtain ⟨home, name, written, _, named, leads⟩ := hop
    exact .outside (.reexported named) leads outside read

/-- A qualified path comes from where it leads, or from outside of the crate. -/
theorem Origin.of_qualify? {home : String} {written : SpelledPath}
    (stands : Written index scope path home written)
    (found : index.qualify? home written = some type)
    : Origin index scope owner path type := by
  unfold qualify? at found
  split at found
  · rename_i text leads
    split at found
    · obtain ⟨declared, search, read⟩ := Option.bind_eq_some_iff.mp found
      exact .of_declaration? search read
    · rename_i outside
      exact .outside stands leads (Bool.eq_false_iff.mpr outside) found
  · contradiction

/-- A single name comes from one of the places where it is looked for, in their order, by the places in
turn.
-/
theorem Origin.of_resolveName? {name : String}
    (found : index.resolveName? scope owner name = some type)
    : Origin index scope owner (.single name) type := by
  unfold resolveName? at found
  split at found
  · rename_i self
    exact .owner (by rw [self]) found
  · split at found
    · rename_i declared
      exact .declaration declared found
    · split at found
      · rename_i base imported
        have stands : Written index scope (.single name) scope.home (base.extend []) :=
          .imported imported (List.nil_subset _)
        rw [SpelledPath.extend, List.append_nil] at stands
        exact .of_qualify? stands found
      · split at found
        · rename_i text globbed
          obtain ⟨glob, _, answered⟩ := List.exists_of_findSome?_eq_some globbed
          split at answered
          · exact .of_declaration? answered found
          · cases answered
        · exact .prelude found

/-- Every type that a path resolves to has an origin, by the number of segments. -/
theorem Origin.of_resolve? (found : index.resolve? scope owner path = some type)
    : Origin index scope owner path type := by
  unfold resolve? at found
  split at found
  · rename_i rooted
    exact .rooted rooted found
  · rename_i unrooted
    split at found
    · contradiction
    · rename_i name same
      obtain rfl : path = .single name := by
        cases path
        simp_all [SpelledPath.single]
      exact .of_resolveName? found
    · rename_i first rest _ same
      have below : rest ⊆ path.segments := by
        rw [same]
        exact List.subset_cons_self first rest
      split at found
      · rename_i base imported
        split at found
        · exact .of_qualify? .itself found
        · exact .of_qualify? (.imported imported below) found
      · exact .of_qualify? .itself found

-----------------------------------------------------------------------------------------
-- Marked declarations
-----------------------------------------------------------------------------------------

variable {marked : Marked}

/-- The type of an owner is resolved in the scope of its declaration. -/
theorem resolve?_of_ownerType? (found : index.ownerType? marked = some type)
    : ∃ scope path,
        index.scopes[marked.scope]? = some scope
          ∧ marked.owner = some path
          ∧ index.resolve? scope none path = some type := by
  unfold ownerType? at found
  split at found
  · rename_i scope path opened owned
    exact ⟨scope, path, opened, owned, found⟩
  · contradiction

/-- Types of parameters stand in the order of the parameters, one for each. -/
theorem forall₂_of_parameterTypes? {types : List TypeName}
    (found : index.parameterTypes? marked = some types)
    : ∃ scope,
        index.scopes[marked.scope]? = some scope
          ∧ List.Forall₂
              (fun parameter type =>
                ∃ path,
                  parameter.shape = .shared path
                    ∧ index.resolve? scope (index.ownerType? marked) path = some type)
              marked.parameters types := by
  unfold parameterTypes? at found
  split at found
  · rename_i scope opened
    refine ⟨scope, opened, (forall₂_of_mapM_eq_some found).imp fun parameter type answered => ?_⟩
    split at answered
    · rename_i path shared
      exact ⟨path, shared, answered⟩
    · contradiction
  · contradiction

end Wiring.Index
