import Wiring.Index.Resolve
import Wiring.Proofs.Text.Segments

/-! Paths that begin with keywords, seen from a module of the crate. `crate` leads to the crate's root,
and each `super` leaves one module, as long as there is one to leave. Behind `self` no `super` is
followed: it stays in the absolute form as if it were the name of a module.
-/

namespace Wiring

-----------------------------------------------------------------------------------------
-- Keywords
-----------------------------------------------------------------------------------------

/-- The keywords that a path may begin with. -/
inductive PathStart
  /-- `crate` -/
  | root
  /-- `self`, with so many `super` behind it -/
  | home (supers : Nat)
  /-- `super`, with so many further ones behind it -/
  | above (supers : Nat)
  deriving DecidableEq, Repr

namespace PathStart

/-- The keywords that a start is written by. -/
def keywords : PathStart → List String
  | root => ["crate"]
  | home supers => "self" :: List.replicate supers "super"
  | above supers => List.replicate (supers + 1) "super"

/-- What is left of the segments below the crate's root once so many modules are left. -/
def leave? (supers : Nat) (below : List String) : Option (List String) :=
  if supers ≤ below.length then some (below.take (below.length - supers)) else none

/-- The module that the keywords lead to. Modules are given by their segments below the crate's root. -/
def base? (below : List String) : PathStart → Option (List String)
  | root => some []
  | home supers => leave? supers below
  | above supers => leave? (supers + 1) below

/-- Only modules that lie deep enough can be left. -/
theorem leave?_eq_none_iff {supers : Nat} {below : List String}
    : leave? supers below = none ↔ below.length < supers := by
  unfold leave?
  split
  · simp only [reduceCtorEq, false_iff]
    omega
  · simp only [true_iff]
    omega

end PathStart

-----------------------------------------------------------------------------------------
-- Absolute forms
-----------------------------------------------------------------------------------------

namespace Index

/-- Climbing stops in front of an ordinary segment. -/
theorem climb_of_ordinary (module : List String) {rest : List String}
    (ordinary : rest.head? ≠ some "super")
    : climb module rest = some (module, rest) := by
  rw [climb]
  rintro more rfl
  exact ordinary rfl

/-- Each `super` in front leaves one of the modules above the root, by induction on their number. The
modules are listed from the inside.
-/
theorem climb_replicate (supers : Nat) (inner : List String) (root : String) {rest : List String}
    (ordinary : rest.head? ≠ some "super")
    : climb (inner ++ [root]) (List.replicate supers "super" ++ rest)
      = if supers ≤ inner.length then some (inner.drop supers ++ [root], rest) else none := by
  induction supers generalizing inner with
  | zero => simpa using climb_of_ordinary (inner ++ [root]) ordinary
  | succ supers ih =>
      rw [List.replicate_succ, List.cons_append]
      cases inner with
      | nil => simp [climb]
      | cons first outer =>
          have further := ih outer
          cases outer with
          | nil => simpa [climb] using further
          | cons second more => simpa [climb] using further

/-- Leaving modules takes as many segments from the end of the path. -/
theorem climb_split {below rest : List String}
    (modules : ∀ segment ∈ below, Segments.IsSingle segment) (ordinary : rest.head? ≠ some "super")
    (supers : Nat)
    : (climb (Segments.split (Segments.join ("crate" :: below))).reverse
          (List.replicate supers "super" ++ rest)).map
        (fun (module, rest) => Segments.join (Segments.join module.reverse :: rest))
      = (PathStart.leave? supers below).map fun outer => Segments.join ("crate" :: outer ++ rest) := by
  have single : ∀ segment ∈ "crate" :: below, Segments.IsSingle segment :=
    List.forall_mem_cons.mpr ⟨Segments.isSingle_of_isToken (by decide), modules⟩
  rw [Segments.split_join (List.cons_ne_nil _ _) single, List.reverse_cons,
    climb_replicate supers below.reverse "crate" ordinary, List.length_reverse, PathStart.leave?]
  split
  · have outer
        : (below.reverse.drop supers ++ ["crate"]).reverse
          = "crate" :: below.take (below.length - supers) := by
      rw [List.reverse_append, List.reverse_singleton, List.singleton_append, List.drop_reverse,
        List.reverse_reverse]
    simp only [Option.map_some, outer]
    rw [Segments.join_join_cons (List.cons_ne_nil _ _)]
  · rfl

/-- The absolute form of a path of keywords and then other segments, seen from a module of the crate.
The keywords lead where they should: to the root or to the module, and one module up for each `super`,
and nowhere exactly if more modules are to be left than lie below the root. But each `super` behind
`self` stays where it is. Leaving modules drops segments from the end of the module's path, and `self`
joins what follows it as it stands.
-/
theorem absolute?_of_keywords (index : Index) {below rest : List String}
    (modules : ∀ segment ∈ below, Segments.IsSingle segment) (ordinary : rest.head? ≠ some "super")
    : (∀ start : PathStart,
          (∀ supers, start ≠ .home (supers + 1))
          → index.absolute? (Segments.join ("crate" :: below)) ⟨false, start.keywords ++ rest⟩
              = (start.base? below).map fun outer => Segments.join ("crate" :: outer ++ rest))
      ∧ (∀ supers,
          index.absolute? (Segments.join ("crate" :: below))
              ⟨false, (PathStart.above supers).keywords ++ rest⟩
            = none
          ↔ below.length < supers + 1)
      ∧ ∀ supers,
          index.absolute? (Segments.join ("crate" :: below))
              ⟨false, (PathStart.home supers).keywords ++ rest⟩
            = some (Segments.join ("crate" :: below ++ List.replicate supers "super" ++ rest)) := by
  have above (supers : Nat)
      : index.absolute? (Segments.join ("crate" :: below))
            ⟨false, (PathStart.above supers).keywords ++ rest⟩
          = (PathStart.leave? (supers + 1) below).map fun outer =>
              Segments.join ("crate" :: outer ++ rest) :=
    climb_split modules ordinary (supers + 1)
  have home (supers : Nat)
      : index.absolute? (Segments.join ("crate" :: below))
            ⟨false, (PathStart.home supers).keywords ++ rest⟩
          = some (Segments.join ("crate" :: below ++ List.replicate supers "super" ++ rest)) := by
    rw [List.append_assoc, ← Segments.join_join_cons (List.cons_ne_nil _ _)]
    rfl
  refine ⟨fun start direct => ?_, fun supers => ?_, home⟩
  · cases start with
    | root => rfl
    | above supers => exact above supers
    | home supers =>
        cases supers with
        | zero => simpa [PathStart.base?, PathStart.leave?] using home 0
        | succ supers => exact absurd rfl (direct supers)
  · rw [above, Option.map_eq_none_iff, PathStart.leave?_eq_none_iff]

/-- Two modules can be left from `crate::net::http`, and three cannot. -/
theorem absolute?_of_keywords_http
    : let index : Index := { marker := "inject", modules := ["crate", "crate::net", "crate::net::http"] }
      index.absolute? "crate::net::http" ⟨false, ["super", "super", "Client"]⟩ = some "crate::Client"
        ∧ index.absolute? "crate::net::http" ⟨false, ["super", "super", "super", "Client"]⟩ = none := by
  intro index
  have modules : ∀ segment ∈ ["net", "http"], Segments.IsSingle segment := by
    simp [Segments.IsSingle]
  have ordinary : ["Client"].head? ≠ some "super" := by decide
  obtain ⟨leads, nowhere, _⟩ := absolute?_of_keywords index modules ordinary
  exact ⟨leads (.above 1) (by simp), (nowhere 2).mpr (by decide)⟩

/-- From `crate::net`, the path `self::super::Client` does not lead to what stands at the root. So it names
no type, though `super::Client` does.
-/
theorem absolute?_keepsSuperBehindSelf
    : let index : Index :=
        { marker := "inject", declared := ["crate::Client"], modules := ["crate", "crate::net"] }
      let path : SpelledPath := ⟨false, (PathStart.home 1).keywords ++ ["Client"]⟩
      (PathStart.home 1).base? ["net"] = some []
        ∧ index.absolute? (Segments.join ["crate", "net"]) path = some "crate::net::super::Client"
        ∧ index.absolute? (Segments.join ["crate", "net"]) path
          ≠ ((PathStart.home 1).base? ["net"]).map
              (fun outer => Segments.join ("crate" :: outer ++ ["Client"]))
        ∧ index.qualify? "crate::net" path = none
        ∧ index.qualify? "crate::net" ⟨false, ["super", "Client"]⟩ = some ⟨"crate", "Client"⟩ :=
  ⟨rfl, rfl, by decide, by decide +kernel, by decide +kernel⟩

end Index

end Wiring
