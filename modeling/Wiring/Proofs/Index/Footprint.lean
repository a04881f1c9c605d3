import Mathlib.Data.List.Basic
import Wiring.Index.Resolve

/-! What the resolution of a path asks of an index: whether types and modules are there, and what
modules import publicly. Indexes that answer all of it alike resolve the path alike, whatever else
they hold.
-/

namespace Wiring.Index

-----------------------------------------------------------------------------------------
-- Questions
-----------------------------------------------------------------------------------------

/-- What resolving asks of an index. Imports are no question: a scope has its own. -/
inductive Question
  /-- Whether a type is declared under the qualified name. -/
  | declares (name : String)
  /-- Whether there is a module of the name. -/
  | hasModule (name : String)
  /-- What the module imports publicly under the name. -/
  | reexport (home name : String)
  /-- What modules the module publicly imports everything of. -/
  | globs (home : String)
  deriving DecidableEq, Repr

/-- Whether two indexes answer a question alike. -/
def Alike (first second : Index) : Question → Prop
  | .declares name => second.declares name = first.declares name
  | .hasModule name => second.modules.contains name = first.modules.contains name
  | .reexport home name => second.namedReexport? home name = first.namedReexport? home name
  | .globs home => second.reexportedGlobs home = first.reexportedGlobs home

/-- Both indexes answer all of the questions alike. -/
def AlikeOn (first second : Index) (questions : List Question) : Prop :=
  ∀ question ∈ questions, Alike first second question

/-- What is asked about items in order, up to the first that has an answer. -/
def askedUntil {α β : Type} (answer? : α → Option β) (asked : α → List Question)
    : List α → List Question
  | [] => []
  | item :: rest =>
      asked item ++ if (answer? item).isSome then [] else askedUntil answer? asked rest

variable (index : Index)

/-- What the absolute form of a path depends on. -/
def askedForAbsolute (home : String) (path : SpelledPath) : List Question :=
  match path.rooted, path.segments with
  | false, first :: _ =>
      if ["crate", "self", "super"].contains first then []
      else [.hasModule (Segments.within home first)]
  | _, _ => []

/-- The declaration of the name that a public import of everything leads to. -/
def declarationOver? (hops : Nat) (home name : String) (glob : SpelledPath) : Option String :=
  match index.absolute? home glob with
  | some base =>
      if base = "crate" ∨ isInCrate base then index.declaration? hops (Segments.within base name)
      else none
  | none => none

/-- What the declaration that a path leads to depends on. -/
def askedForDeclaration : Nat → String → List Question
  | 0, path => [.declares path]
  | hops + 1, path =>
      .declares path ::
        if index.declares path then []
        else
          match Segments.splitLast? path with
          | none => []
          | some (home, name) =>
              .reexport home name ::
                match index.namedReexport? home name with
                | some target =>
                    askedForAbsolute home target ++
                      match index.absolute? home target with
                      | some target =>
                          if isInCrate target then askedForDeclaration hops target else []
                      | none => []
                | none =>
                    .globs home ::
                      askedUntil (index.declarationOver? hops home name)
                        (fun glob =>
                          askedForAbsolute home glob ++
                            match index.absolute? home glob with
                            | some base =>
                                if base = "crate" ∨ isInCrate base then
                                  askedForDeclaration hops (Segments.within base name)
                                else []
                            | none => [])
                        (index.reexportedGlobs home)

/-- Qualifying a path asks for its absolute form, and then for the declaration that it leads to. -/
def askedForQualified (home : String) (path : SpelledPath) : List Question :=
  askedForAbsolute home path ++
    match index.absolute? home path with
    | some path => if isInCrate path then index.askedForDeclaration hopLimit path else []
    | none => []

/-- The type of the name that an import of everything leads to. -/
def globbedOver? (scope : Scope) (name : String) (glob : SpelledPath) : Option String :=
  match index.absolute? scope.home glob with
  | some base => index.declaration? hopLimit (Segments.within base name)
  | none => none

/-- A globbed name asks about each of the globs, up to the first one that has it. -/
def askedForGlobbed (scope : Scope) (name : String) : List Question :=
  askedUntil (index.globbedOver? scope name)
    (fun glob =>
      askedForAbsolute scope.home glob ++
        match index.absolute? scope.home glob with
        | some base => index.askedForDeclaration hopLimit (Segments.within base name)
        | none => [])
    scope.globs

/-- A single name asks for a declaration beside it, then for its imports. -/
def askedForName (scope : Scope) (name : String) : List Question :=
  if name = "Self" then []
  else
    .declares (Segments.within scope.home name) ::
      if index.declares (Segments.within scope.home name) then []
      else
        match scope.path? name with
        | some path => index.askedForQualified scope.home path
        | none => index.askedForGlobbed scope name

/-- What the type at a path written in the scope depends on. -/
def askedForType (scope : Scope) (path : SpelledPath) : List Question :=
  match path.rooted, path.segments with
  | false, [name] => index.askedForName scope name
  | false, first :: rest =>
      match scope.path? first with
      | some base =>
          if ["crate", "self", "super"].contains first then
            index.askedForQualified scope.home path
          else index.askedForQualified scope.home (base.extend rest)
      | none => index.askedForQualified scope.home path
  | _, _ => []

end Index

/-- The paths of the owner and of the parameters. -/
def Marked.paths (marked : Marked) : List SpelledPath :=
  marked.owner.toList
    ++ marked.parameters.filterMap fun parameter =>
      match parameter.shape with
      | .shared path => some path
      | .unsupported _ => none

/-- What the types of a marked declaration in the scope depend on. -/
def Index.askedForTypes (index : Index) (scope : Scope) (marked : Marked) : List Index.Question :=
  marked.paths.flatMap (index.askedForType scope)

-----------------------------------------------------------------------------------------
-- The same answers
-----------------------------------------------------------------------------------------

namespace Index

variable {first second : Index}

/-- One more question. -/
@[simp]
theorem alikeOn_cons {question : Question} {rest : List Question}
    : AlikeOn first second (question :: rest)
      ↔ Alike first second question ∧ AlikeOn first second rest :=
  List.forall_mem_cons

/-- Questions may be asked in two parts. -/
@[simp]
theorem alikeOn_append {questions more : List Question}
    : AlikeOn first second (questions ++ more)
      ↔ AlikeOn first second questions ∧ AlikeOn first second more :=
  List.forall_mem_append

/-- Items are tried alike up to the first that has an answer, by induction on the items. -/
theorem findSome?_eq_of_alike {α β : Type} {answer? other? : α → Option β}
    {asked : α → List Question} {items : List α}
    (same : ∀ item, AlikeOn first second (asked item) → other? item = answer? item)
    (alike : AlikeOn first second (askedUntil answer? asked items))
    : items.findSome? other? = items.findSome? answer? := by
  induction items with
  | nil => rfl
  | cons item rest ih =>
      obtain ⟨here, later⟩ := alikeOn_append.mp alike
      rw [List.findSome?_cons, List.findSome?_cons, same item here]
      cases found : answer? item with
      | some answer => rfl
      | none => exact ih (by simpa [found] using later)

/-- A partial function that is the same on all items maps them alike, by induction on the items. -/
theorem mapM_eq_of_mem {α β : Type} {answer? other? : α → Option β} {items : List α}
    (same : ∀ item ∈ items, other? item = answer? item)
    : items.mapM other? = items.mapM answer? := by
  induction items with
  | nil => rfl
  | cons item rest ih =>
      rw [List.mapM_cons, List.mapM_cons, same item (by simp),
        ih fun later member => same later (List.mem_cons_of_mem item member)]

/-- The absolute form of a path is the same in both indexes if the first segment is a module in both or
in neither. A path that starts with a keyword, or at the root, asks nothing.
-/
theorem absolute?_eq_of_alike {home : String} {path : SpelledPath}
    (alike : AlikeOn first second (askedForAbsolute home path))
    : second.absolute? home path = first.absolute? home path := by
  obtain ⟨rooted, segments⟩ := path
  cases rooted with
  | true => rfl
  | false =>
      cases segments with
      | nil => rfl
      | cons segment rest =>
          by_cases keyword : ["crate", "self", "super"].contains segment = true
          · simp only [List.contains_cons, List.contains_nil, Bool.or_false, Bool.or_eq_true,
              beq_iff_eq] at keyword
            rcases keyword with rfl | rfl | rfl <;> rfl
          · have asked : askedForAbsolute home ⟨false, segment :: rest⟩
                = [.hasModule (Segments.within home segment)] := by
              rw [askedForAbsolute]
              exact if_neg keyword
            rw [asked] at alike
            have modules : second.modules.contains (Segments.within home segment)
                = first.modules.contains (Segments.within home segment) :=
              (alikeOn_cons.mp alike).1
            simp only [absolute?, modules]

/-- The same declaration is found, by induction on the public imports that may be followed. -/
theorem declaration?_eq_of_alike {hops : Nat} {path : String}
    (alike : AlikeOn first second (first.askedForDeclaration hops path))
    : second.declaration? hops path = first.declaration? hops path := by
  induction hops generalizing path with
  | zero =>
      have declares : second.declares path = first.declares path := (alikeOn_cons.mp alike).1
      rw [declaration?, declaration?, declares]
  | succ hops ih =>
      rw [askedForDeclaration] at alike
      obtain ⟨declares, alike⟩ := alikeOn_cons.mp alike
      have declares : second.declares path = first.declares path := declares
      rw [declaration?, declaration?, declares]
      cases found : first.declares path with
      | true => rfl
      | false =>
          cases split : Segments.splitLast? path with
          | none => rfl
          | some parts =>
              obtain ⟨home, name⟩ := parts
              simp only [found, split, Bool.false_eq_true, if_false] at alike ⊢
              obtain ⟨reexport, alike⟩ := alikeOn_cons.mp alike
              have reexport
                  : second.namedReexport? home name = first.namedReexport? home name :=
                reexport
              rw [reexport]
              cases named : first.namedReexport? home name with
              | some target =>
                  simp only [named] at alike ⊢
                  obtain ⟨absolute, alike⟩ := alikeOn_append.mp alike
                  rw [absolute?_eq_of_alike absolute]
                  cases target : first.absolute? home target with
                  | none => rfl
                  | some target =>
                      simp only [target] at alike ⊢
                      split
                      · rename_i inCrate
                        rw [if_pos inCrate] at alike
                        exact ih alike
                      · rfl
              | none =>
                  simp only [named] at alike ⊢
                  obtain ⟨globs, alike⟩ := alikeOn_cons.mp alike
                  have globs : second.reexportedGlobs home = first.reexportedGlobs home := globs
                  rw [globs]
                  refine findSome?_eq_of_alike (fun glob alike => ?_) alike
                  obtain ⟨absolute, alike⟩ := alikeOn_append.mp alike
                  rw [absolute?_eq_of_alike absolute]
                  cases base : first.absolute? home glob with
                  | none => rfl
                  | some base =>
                      simp only [base] at alike ⊢
                      split
                      · rename_i inCrate
                        rw [if_pos inCrate] at alike
                        exact ih alike
                      · rfl

/-- A path is qualified alike, as its absolute form and its declaration are found alike. -/
theorem qualify?_eq_of_alike {home : String} {path : SpelledPath}
    (alike : AlikeOn first second (first.askedForQualified home path))
    : second.qualify? home path = first.qualify? home path := by
  obtain ⟨absolute, alike⟩ := alikeOn_append.mp alike
  rw [qualify?, qualify?, absolute?_eq_of_alike absolute]
  cases found : first.absolute? home path with
  | none => rfl
  | some path =>
      simp only [found] at alike ⊢
      split
      · rename_i inCrate
        rw [if_pos inCrate] at alike
        rw [declaration?_eq_of_alike alike]
      · rfl

/-- A globbed name is found alike, glob by glob up to the first one that has it. -/
theorem globbed?_eq_of_alike {scope : Scope} {name : String}
    (alike : AlikeOn first second (first.askedForGlobbed scope name))
    : second.globbed? scope name = first.globbed? scope name := by
  unfold globbed?
  refine findSome?_eq_of_alike (fun glob alike => ?_) alike
  obtain ⟨absolute, alike⟩ := alikeOn_append.mp alike
  rw [absolute?_eq_of_alike absolute]
  cases base : first.absolute? scope.home glob with
  | none => rfl
  | some base =>
      simp only [base] at alike ⊢
      exact declaration?_eq_of_alike alike

/-- A single name is resolved alike, in the order in which its meanings are tried. Each meaning that is
tried asks its question only where those before it have failed.
-/
theorem resolveName?_eq_of_alike {scope : Scope} {owner : Option TypeName} {name : String}
    (alike : AlikeOn first second (first.askedForName scope name))
    : second.resolveName? scope owner name = first.resolveName? scope owner name := by
  unfold resolveName?
  by_cases itself : name = "Self"
  · rw [if_pos itself, if_pos itself]
  · rw [askedForName, if_neg itself] at alike
    obtain ⟨declares, alike⟩ := alikeOn_cons.mp alike
    have declares
        : second.declares (Segments.within scope.home name)
          = first.declares (Segments.within scope.home name) :=
      declares
    rw [if_neg itself, if_neg itself, declares]
    split
    · rfl
    · rename_i undeclared
      rw [if_neg undeclared] at alike
      cases imported : scope.path? name with
      | some path =>
          simp only [imported] at alike ⊢
          exact qualify?_eq_of_alike alike
      | none =>
          simp only [imported] at alike ⊢
          rw [globbed?_eq_of_alike alike]

/-- A path stands for the same type in indexes that answer alike what it depends on, by the number of
segments and by the import of the first one.
-/
theorem resolve?_eq_of_alike {scope : Scope} {owner : Option TypeName} {path : SpelledPath}
    (alike : AlikeOn first second (first.askedForType scope path))
    : second.resolve? scope owner path = first.resolve? scope owner path := by
  obtain ⟨rooted, segments⟩ := path
  cases rooted with
  | true => simp only [resolve?, if_true]
  | false =>
      match segments with
      | [] => simp only [resolve?, Bool.false_eq_true, if_false]
      | [name] =>
          simp only [askedForType] at alike
          simp only [resolve?, Bool.false_eq_true, if_false]
          exact resolveName?_eq_of_alike alike
      | segment :: next :: rest =>
          simp only [askedForType] at alike
          simp only [resolve?, Bool.false_eq_true, if_false]
          cases imported : scope.path? segment with
          | none =>
              simp only [imported] at alike ⊢
              exact qualify?_eq_of_alike alike
          | some base =>
              simp only [imported] at alike ⊢
              split at alike
              · rename_i keyword
                rw [if_pos keyword, if_pos keyword]
                exact qualify?_eq_of_alike alike
              · rename_i ordinary
                rw [if_neg ordinary, if_neg ordinary]
                exact qualify?_eq_of_alike alike

/-- A name stands for the type of that name declared beside it. -/
theorem resolve?_of_beside {index : Index} {scope : Scope} {owner : Option TypeName} {name : String}
    (ordinary : name ≠ "Self")
    (declared : index.declares (Segments.within scope.home name) = true)
    : index.resolve? scope owner (.single name)
      = TypeName.parse? (Segments.within scope.home name) := by
  simp only [resolve?, SpelledPath.single, resolveName?, if_neg ordinary, declared, if_true,
    Bool.false_eq_true, if_false]

/-- The types of a declaration are the same wherever its scope is the same and what they depend on is
answered alike. All paths of the declaration are resolved in that scope.
-/
theorem types_eq_of_alike {marked other : Marked} {scope : Scope}
    (here : first.scopes[marked.scope]? = some scope)
    (there : second.scopes[other.scope]? = some scope) (owners : other.owner = marked.owner)
    (parameters : other.parameters = marked.parameters)
    (alike : AlikeOn first second (first.askedForTypes scope marked))
    : second.ownerType? other = first.ownerType? marked
      ∧ second.parameterTypes? other = first.parameterTypes? marked := by
  have resolved : ∀ path ∈ marked.paths, ∀ owner,
      second.resolve? scope owner path = first.resolve? scope owner path := by
    intro path member owner
    refine resolve?_eq_of_alike fun question asked => alike question ?_
    exact List.mem_flatMap.mpr ⟨path, member, asked⟩
  have owner : second.ownerType? other = first.ownerType? marked := by
    unfold ownerType?
    rw [here, there, owners]
    cases written : marked.owner with
    | none => rfl
    | some path => exact resolved path (by simp [Marked.paths, written]) none
  refine ⟨owner, ?_⟩
  unfold parameterTypes?
  rw [here, there, owner, parameters]
  refine mapM_eq_of_mem fun parameter member => ?_
  cases shape : parameter.shape with
  | unsupported written => rfl
  | shared path =>
      refine resolved path (List.mem_append_right _ ?_) _
      exact List.mem_filterMap.mpr ⟨parameter, member, by rw [shape]⟩

end Index

end Wiring
