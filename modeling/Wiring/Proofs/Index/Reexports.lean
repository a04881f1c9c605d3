import Wiring.Index.Resolve

/-! Following public imports, from a path of the crate to the type that it stands for. The imports are
the steps of a search. It answers an end of a route that is short enough, and misses none.
-/

namespace Wiring.Index

/-- Whether a module is the root of the crate or lies inside it. -/
def IsCrateModule (home : String) : Prop :=
  home = "crate" ∨ isInCrate home = true

/-- The public import that names the path leads to `target`. -/
def NamedHop (index : Index) (path target : String) : Prop :=
  ∃ home name written,
    Segments.splitLast? path = some (home, name)
      ∧ index.namedReexport? home name = some written
      ∧ index.absolute? home written = some target

/-- No public import names the path, and one of everything in a module of the crate leads to `target`. -/
def GlobHop (index : Index) (path target : String) : Prop :=
  ∃ home name glob base,
    Segments.splitLast? path = some (home, name)
      ∧ index.namedReexport? home name = none
      ∧ glob ∈ index.reexportedGlobs home
      ∧ index.absolute? home glob = some base
      ∧ IsCrateModule base
      ∧ target = Segments.within base name

/-- One step of a chain of exports, named or by a glob. -/
def Hop (index : Index) (path target : String) : Prop :=
  index.NamedHop path target ∨ index.GlobHop path target

/-- Whether no import is followed any further: the path is declared, or it was imported by name from
outside the crate.
-/
def IsEnd (index : Index) (path : String) : Prop :=
  index.declares path = true ∨ isInCrate path = false ∧ ∃ source, index.NamedHop source path

/-- A route of the given number of steps. Only its last path may be an end. -/
inductive Route (index : Index) (Step : String → String → Prop) : Nat → String → String → Prop
  | here (path : String) : Route index Step 0 path path
  | hop {hops : Nat} {path next last : String} (goesOn : ¬index.IsEnd path) (step : Step path next)
      (rest : Route index Step hops next last) : Route index Step (hops + 1) path last

variable {index : Index}

-----------------------------------------------------------------------------------------
-- Ends
-----------------------------------------------------------------------------------------

/-- What is in a module of the crate is in the crate. -/
theorem isInCrate_within {base : String} (inside : IsCrateModule base) (name : String)
    : isInCrate (Segments.within base name) = true := by
  have begins : "crate::".toList <+: (Segments.within base name).toList := by
    rcases inside with rfl | inside
    · exact ⟨name.toList, by simp [Segments.within]⟩
    · obtain ⟨rest, same⟩ := String.startsWith_string_iff.mp inside
      exact ⟨rest ++ ':' :: ':' :: name.toList, by simp [Segments.within, ← same]⟩
  exact String.startsWith_string_iff.mpr begins

/-- A path that is no end is not declared. -/
theorem declares_eq_false_of_not_isEnd {path : String} (goesOn : ¬index.IsEnd path)
    : index.declares path = false :=
  Bool.eq_false_iff.mpr fun declared => goesOn (.inl declared)

/-- Inside the crate, only declared paths are ends. -/
theorem isEnd_iff_of_isInCrate {path : String} (inCrate : isInCrate path = true)
    : index.IsEnd path ↔ index.declares path = true := by
  simp [IsEnd, inCrate]

/-- An undeclared path in the crate is no end. -/
theorem not_isEnd {path : String} (inCrate : isInCrate path = true)
    (undeclared : index.declares path = false)
    : ¬index.IsEnd path := by
  rw [isEnd_iff_of_isInCrate inCrate, undeclared]
  exact Bool.false_ne_true

/-- What is imported by name from outside the crate ends every route. -/
theorem NamedHop.isInCrate_of_not_isEnd {path target : String} (hop : index.NamedHop path target)
    (goesOn : ¬index.IsEnd target)
    : isInCrate target = true :=
  Bool.of_not_eq_false fun outside => goesOn (.inr ⟨outside, path, hop⟩)

-----------------------------------------------------------------------------------------
-- One step
-----------------------------------------------------------------------------------------

/-- What is declared is its own declaration, with any number of hops left. -/
theorem declaration?_of_declares {path : String} (declared : index.declares path = true) (hops : Nat)
    : index.declaration? hops path = some path := by
  cases hops <;> simp [declaration?, declared]

/-- A public import that names the path is the only one that is followed. -/
theorem declaration?_of_namedHop {path target : String} (undeclared : index.declares path = false)
    (hop : index.NamedHop path target) (hops : Nat)
    : index.declaration? (hops + 1) path
      = if isInCrate target then index.declaration? hops target else some target := by
  obtain ⟨home, name, written, parts, named, leads⟩ := hop
  simp [declaration?, undeclared, parts, named, leads]

/-- An import of everything is not lost behind others that lead nowhere. -/
theorem isSome_declaration?_of_globHop {path next : String} (undeclared : index.declares path = false)
    (hop : index.GlobHop path next) {hops : Nat} (found : (index.declaration? hops next).isSome = true)
    : (index.declaration? (hops + 1) path).isSome = true := by
  obtain ⟨home, name, glob, base, parts, unnamed, among, leads, inside, rfl⟩ := hop
  simp only [declaration?, undeclared, Bool.false_eq_true, if_false, parts, unnamed]
  rw [List.findSome?_isSome_iff]
  rw [IsCrateModule] at inside
  exact ⟨glob, among, by simpa [leads, inside] using found⟩

/-- All that a search with a step left can answer, by the steps of its definition. -/
theorem declaration?_succ_eq_some {hops : Nat} {path last : String}
    (found : index.declaration? (hops + 1) path = some last)
    : (index.declares path = true ∧ last = path)
      ∨ index.declares path = false
        ∧ ((isInCrate last = false ∧ index.NamedHop path last)
          ∨ ∃ next,
              isInCrate next = true ∧ index.Hop path next
                ∧ index.declaration? hops next = some last) := by
  unfold declaration? at found
  split at found
  · rename_i declared
    exact .inl ⟨declared, (Option.some.inj found).symm⟩
  · rename_i undeclared
    refine .inr ⟨Bool.eq_false_iff.mpr undeclared, ?_⟩
    split at found
    · contradiction
    · rename_i home name parts
      split at found
      · rename_i written named
        split at found
        · rename_i target leads
          have hop : index.NamedHop path target := ⟨home, name, written, parts, named, leads⟩
          split at found
          · rename_i inside
            exact .inr ⟨target, inside, .inl hop, found⟩
          · rename_i outside
            obtain rfl := Option.some.inj found
            exact .inl ⟨Bool.eq_false_iff.mpr outside, hop⟩
        · contradiction
      · rename_i unnamed
        obtain ⟨glob, among, answered⟩ := List.exists_of_findSome?_eq_some found
        split at answered
        · rename_i base leads
          split at answered
          · rename_i inside
            exact .inr ⟨_, isInCrate_within inside name,
              .inr ⟨home, name, glob, base, parts, unnamed, among, leads, inside, rfl⟩, answered⟩
          · contradiction
        · contradiction

-----------------------------------------------------------------------------------------
-- Routes
-----------------------------------------------------------------------------------------

/-- Whatever is answered is an end, and from a path of the crate it lies at most so many steps away. By
induction on their number.
-/
theorem route_of_declaration? {hops : Nat} {path last : String}
    (found : index.declaration? hops path = some last)
    : index.IsEnd last
      ∧ (isInCrate path = true → ∃ taken ≤ hops, index.Route index.Hop taken path last) := by
  induction hops generalizing path with
  | zero =>
      unfold declaration? at found
      split at found
      · rename_i declared
        obtain rfl := Option.some.inj found
        exact ⟨.inl declared, fun _ => ⟨0, Nat.le_refl 0, .here _⟩⟩
      · contradiction
  | succ hops ih =>
      obtain ⟨declared, rfl⟩ | ⟨undeclared, ⟨outside, hop⟩ | ⟨next, inside, hop, later⟩⟩ :=
        declaration?_succ_eq_some found
      · exact ⟨.inl declared, fun _ => ⟨0, Nat.zero_le _, .here _⟩⟩
      · refine ⟨.inr ⟨outside, path, hop⟩, fun inCrate => ⟨1, by omega, ?_⟩⟩
        exact .hop (not_isEnd inCrate undeclared) (.inl hop) (.here _)
      · obtain ⟨ends, onward⟩ := ih later
        obtain ⟨taken, short, rest⟩ := onward inside
        refine ⟨ends, fun inCrate => ⟨taken + 1, by omega, ?_⟩⟩
        exact .hop (not_isEnd inCrate undeclared) hop rest

/-- An end that is near enough is not missed, though the answer may be another one. By induction on the
route.
-/
theorem Route.isSome_declaration? {taken : Nat} {path last : String}
    (route : index.Route index.Hop taken path last) (ends : index.IsEnd last)
    (inCrate : isInCrate path = true) {hops : Nat} (short : taken ≤ hops)
    : (index.declaration? hops path).isSome = true := by
  induction route generalizing hops with
  | here path =>
      rw [declaration?_of_declares ((isEnd_iff_of_isInCrate inCrate).mp ends)]
      rfl
  | hop goesOn step rest ih =>
      obtain ⟨left, rfl⟩ : ∃ left, hops = left + 1 := ⟨hops - 1, by omega⟩
      have undeclared := declares_eq_false_of_not_isEnd goesOn
      rcases step with named | glob
      · rw [declaration?_of_namedHop undeclared named]
        split
        · rename_i inside
          exact ih ends inside (by omega)
        · rfl
      · obtain ⟨home, name, _, base, _, _, _, _, inside, rfl⟩ := id glob
        exact isSome_declaration?_of_globHop undeclared glob
          (ih ends (isInCrate_within inside name) (by omega))

/-- Named imports leave no choice: the answer is the end of the route. By induction on it. -/
theorem Route.declaration?_of_named {taken : Nat} {path last : String}
    (route : index.Route index.NamedHop taken path last) (ends : index.IsEnd last)
    (inCrate : isInCrate path = true) {hops : Nat} (short : taken ≤ hops)
    : index.declaration? hops path = some last := by
  induction route generalizing hops with
  | here path => exact declaration?_of_declares ((isEnd_iff_of_isInCrate inCrate).mp ends) hops
  | hop goesOn step rest ih =>
      obtain ⟨left, rfl⟩ : ∃ left, hops = left + 1 := ⟨hops - 1, by omega⟩
      rw [declaration?_of_namedHop (declares_eq_false_of_not_isEnd goesOn) step]
      split
      · rename_i inside
        exact ih ends inside (by omega)
      · rename_i outside
        cases rest with
        | here => rfl
        -- What lies outside the crate was imported by name here, so no route goes on from it.
        | hop goesOn => exact absurd (step.isInCrate_of_not_isEnd goesOn) outside

/-- A route of named imports that has one step too many is given up, by induction on the steps left. -/
theorem Route.declaration?_eq_none {hops : Nat} {path last : String}
    (route : index.Route index.NamedHop (hops + 1) path last)
    : index.declaration? hops path = none := by
  induction hops generalizing path with
  | zero =>
      cases route with
      | hop goesOn step rest => simp [declaration?, declares_eq_false_of_not_isEnd goesOn]
  | succ hops ih =>
      cases route with
      | hop goesOn step rest =>
          rw [declaration?_of_namedHop (declares_eq_false_of_not_isEnd goesOn) step, ih rest]
          cases rest with
          | hop further => simp [step.isInCrate_of_not_isEnd further]

/-- Every search ends, as each step leaves fewer; public imports of everything may well lead in circles.
From a path of the crate it answers an end that lies at most 16 steps away, and it answers one whenever
there is one. Named imports lead exactly to the end of 16 steps, and no further.
-/
theorem declaration?_exact (index : Index) {path : String} (inCrate : isInCrate path = true)
    : (∀ last, index.declaration? hopLimit path = some last
        → index.IsEnd last ∧ ∃ hops ≤ 16, index.Route index.Hop hops path last)
      ∧ (∀ last, index.IsEnd last → (∃ hops ≤ 16, index.Route index.Hop hops path last)
        → (index.declaration? hopLimit path).isSome = true)
      ∧ (∀ last, index.IsEnd last → index.Route index.NamedHop 16 path last
        → index.declaration? hopLimit path = some last)
      ∧ ∀ last, index.Route index.NamedHop 17 path last
        → index.declaration? hopLimit path = none := by
  refine ⟨fun last found => ?_, fun last ends => ?_, fun last ends route => ?_, fun last route => ?_⟩
  · obtain ⟨ends, onward⟩ := route_of_declaration? found
    exact ⟨ends, onward inCrate⟩
  · rintro ⟨hops, short, route⟩
    exact route.isSome_declaration? ends inCrate short
  · exact route.declaration?_of_named ends inCrate (Nat.le_refl 16)
  · exact route.declaration?_eq_none

/-- Eighteen names in a row, of which the last one is declared: it is found from the second one, and
not from the first. Two modules that import everything of each other lead to no end. From the first
name the declaration lies one step too far.
-/
theorem declaration?_exact_aliases
    : let names :=
        ["A", "B", "C", "D", "E", "F", "G", "H", "I", "J", "K", "L", "M", "N", "O", "P", "Q", "R"]
      let index : Index :=
        {
          marker := "inject"
          declared := ["crate::R"]
          reexports :=
            ⟨"crate::a", .glob ⟨false, ["crate", "b"]⟩⟩
              :: ⟨"crate::b", .glob ⟨false, ["crate", "a"]⟩⟩
              :: names.zipWith (fun name next => ⟨"crate", .named name ⟨false, ["crate", next]⟩⟩)
                names.tail
        }
      index.declaration? hopLimit "crate::B" = some "crate::R"
        ∧ (∃ hops ≤ 16, index.Route index.Hop hops "crate::B" "crate::R")
        ∧ index.declaration? hopLimit "crate::A" = none
        ∧ ∀ last, index.IsEnd last → ¬∃ hops ≤ 16, index.Route index.Hop hops "crate::a::Client" last := by
  intro names index
  have found : index.declaration? hopLimit "crate::B" = some "crate::R" := by decide +kernel
  have nothing : index.declaration? hopLimit "crate::a::Client" = none := by decide +kernel
  refine ⟨found, ((declaration?_exact index (by decide +kernel)).1 _ found).2, by decide +kernel, ?_⟩
  intro last ends near
  have answers := (declaration?_exact index (by decide +kernel)).2.1 last ends near
  rw [nothing] at answers
  contradiction

end Wiring.Index
