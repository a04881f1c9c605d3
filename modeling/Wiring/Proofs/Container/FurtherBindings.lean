import Wiring.Proofs.Container.Lookups
import Wiring.Proofs.Container.PostOrder
import Wiring.Proofs.Container.MissingBindings

/-! What one more binding does to a resolution. Nothing, if the resolution never looks the key up: it
goes on as before, with other numbers for what it makes. And a retrieval that succeeds goes on to do
so, with fewer calls at most: the binding takes the place of what was made, wherever it was asked for.
-/

namespace Wiring

-----------------------------------------------------------------------------------------
-- Alike but for numbers
-----------------------------------------------------------------------------------------

section

variable {α β γ δ : Type} {related : α → β → Prop} {next : γ → δ → Prop} {left : Option α}
  {right : Option β}

/-- Related options go on to related options if what follows keeps the relation, by cases on whether
there is anything.
-/
theorem rel_bind {f : α → Option γ} {g : β → Option δ} (same : Option.Rel related left right)
    (follows : ∀ value other, related value other → Option.Rel next (f value) (g other))
    : Option.Rel next (left.bind f) (right.bind g) := by
  cases same with
  | none => exact .none
  | some same => exact follows _ _ same

/-- Related options are mapped to related options, by cases on whether there is anything. -/
theorem rel_map {f : α → γ} {g : β → δ} (same : Option.Rel related left right)
    (follows : ∀ value other, related value other → next (f value) (g other))
    : Option.Rel next (left.map f) (right.map g) := by
  cases same with
  | none => exact .none
  | some same => exact .some (follows _ _ same)

end

namespace Container

/-- Resolutions that start after `before` and after `after` instances have found instances that differ
in numbers alone: what is bound is the same in both, and what they have made they have made at the
same point of their courses, out of parts that are alike.
-/
inductive Alike (container : Container) (before after : Nat) : Instance → Instance → Prop
  | bound {key value} (held : container.bindings.get? key = some value)
    : Alike container before after value value
  | made (offset : Nat) {type parts others}
    (below : List.Forall₂ (Alike container before after) parts others)
    : Alike container before after (.mk (before + offset) type none parts)
        (.mk (after + offset) type none others)

/-- The calls make the same, out of arguments that are alike. -/
structure AlikeCalls (container : Container) (before after : Nat) (left right : Call) : Prop where
  makes : left.makes = right.makes
  arguments : List.Forall₂ (container.Alike before after) left.arguments right.arguments

/-- Both have failed for one reason, or they have found what is alike. -/
inductive AlikeResults {α : Type} (alike : α → α → Prop)
    : Except ResolutionFault α → Except ResolutionFault α → Prop
  | failed (fault : ResolutionFault) : AlikeResults alike (.error fault) (.error fault)
  | found {left right} (same : alike left right) : AlikeResults alike (.ok left) (.ok right)

/-- The outcomes are alike in all but numbers. -/
structure AlikeOutcomes {α : Type} (container : Container) (before after : Nat)
    (alike : α → α → Prop) (left right : Outcome α)
    : Prop where
  made : ∃ count, left.made = before + count ∧ right.made = after + count
  calls : List.Forall₂ (container.AlikeCalls before after) left.calls right.calls
  events : left.events = right.events
  result : AlikeResults alike left.result right.result

variable {container : Container} {before after : Nat}

/-- Alike instances are of one type, in each way to be alike. -/
theorem Alike.type_eq {left right : Instance} (alike : container.Alike before after left right)
    : left.type = right.type := by
  cases alike <;> rfl

/-- What follows two steps that are alike, and is alike for both, ends alike. The lists of calls and
events are appended on both sides.
-/
theorem AlikeOutcomes.andThen {α β : Type} {alike : α → α → Prop} {related : β → β → Prop}
    {left right : Outcome α} {next : Nat → α → Option (Outcome β)}
    (first : container.AlikeOutcomes before after alike left right)
    (follows : ∀ count value other,
      alike value other
      → Option.Rel (container.AlikeOutcomes before after related) (next (before + count) value)
          (next (after + count) other))
    : Option.Rel (container.AlikeOutcomes before after related) (left.andThen next)
        (right.andThen next) := by
  obtain ⟨made, calls, events, result⟩ := left
  obtain ⟨madeRight, callsRight, eventsRight, resultRight⟩ := right
  obtain ⟨⟨count, rfl, rfl⟩, called, rfl, same⟩ := first
  cases same with
  | failed fault => exact .some ⟨⟨count, rfl, rfl⟩, called, rfl, .failed fault⟩
  | @found value other same =>
      refine rel_map (follows count value other same) fun rest further alike => ?_
      obtain ⟨made, calls, told, results⟩ := alike
      exact ⟨made, List.rel_append called calls, by simp [told], results⟩

/-- A type check treats them alike, since instances that are alike have one type. -/
theorem AlikeOutcomes.typed {left right : Outcome Instance}
    (alike : container.AlikeOutcomes before after (container.Alike before after) left right)
    (key : TypeKey)
    : container.AlikeOutcomes before after (container.Alike before after) (left.typed key)
        (right.typed key) := by
  obtain ⟨made, calls, events, result⟩ := left
  obtain ⟨madeRight, callsRight, eventsRight, resultRight⟩ := right
  obtain ⟨count, called, told, same⟩ := alike
  cases same with
  | failed fault => exact ⟨count, called, told, .failed fault⟩
  | @found value other same =>
      by_cases typed : value.type = key
      · have typedOther : other.type = key := same.type_eq ▸ typed
        simpa [Outcome.typed, typed, typedOther] using ⟨count, called, told, .found same⟩
      · have differs : other.type ≠ key := same.type_eq ▸ typed
        simpa [Outcome.typed, typed, differs] using ⟨count, called, told, .failed _⟩

/-- One more pair of alike instances in front keeps results alike, for a failure stays the same
failure.
-/
theorem AlikeResults.cons {left right : Except ResolutionFault (List Instance)}
    {value other : Instance}
    (others : AlikeResults (List.Forall₂ (container.Alike before after)) left right)
    (first : container.Alike before after value other)
    : AlikeResults (List.Forall₂ (container.Alike before after)) (left.map (value :: ·))
        (right.map (other :: ·)) := by
  cases others with
  | failed fault => exact .failed fault
  | found rest => exact .found (.cons first rest)

/-- Keys in order are resolved alike when each of them is, by induction on the keys. -/
theorem resolveEach_renumbered {resolve : Nat → TypeKey → Option (Outcome Instance)}
    (each : ∀ count key,
      Option.Rel (container.AlikeOutcomes before after (container.Alike before after))
        (resolve (before + count) key) (resolve (after + count) key))
    (count : Nat) (keys : List TypeKey)
    : Option.Rel
        (container.AlikeOutcomes before after (List.Forall₂ (container.Alike before after)))
        (resolveEach resolve (before + count) keys) (resolveEach resolve (after + count) keys) := by
  induction keys generalizing count with
  | nil => exact .some ⟨⟨count, rfl, rfl⟩, .nil, rfl, .found .nil⟩
  | cons first rest ih =>
      rw [resolveEach, resolveEach]
      refine rel_bind (each count first) fun _ _ head => ?_
      refine (head.typed first).andThen fun count value other same => ?_
      refine rel_map (ih count) fun left right others => ?_
      obtain ⟨made, calls, told, result⟩ := others
      exact ⟨made, calls, told, result.cons same⟩

/-- How many instances there have been before makes no difference but in numbers, by induction on the
depth.
-/
theorem resolveWithin_renumbered (container : Container) (before after depth count : Nat)
    (key : TypeKey)
    : Option.Rel (container.AlikeOutcomes before after (container.Alike before after))
        (container.resolveWithin depth (before + count) key)
        (container.resolveWithin depth (after + count) key) := by
  induction depth generalizing count key with
  | zero => exact .none
  | succ depth ih =>
      unfold resolveWithin
      cases held : container.bindings.get? key with
      | some value => exact .some ⟨⟨count, rfl, rfl⟩, .nil, rfl, .found (.bound held)⟩
      | none =>
          cases Recipe.find? container.recipes key with
          | none => exact .some ⟨⟨count, rfl, rfl⟩, .nil, rfl, .failed _⟩
          | some recipe =>
              refine rel_bind (resolveEach_renumbered ih count recipe.parameters) ?_
              rintro left right ⟨made, calls, told, result⟩
              refine AlikeOutcomes.andThen ⟨made, calls, by simp [told], result⟩ ?_
              intro count values others same
              refine .some ⟨⟨count + 1, rfl, rfl⟩, ?_, rfl, .found (.made (count + 1) same)⟩
              exact .cons ⟨rfl, same⟩ .nil

-----------------------------------------------------------------------------------------
-- What is not looked up
-----------------------------------------------------------------------------------------

/-- Resolvers that agree on the keys that are come to agree on keys in order, by induction on them. -/
theorem resolveEach_congr {depth made : Nat} {keys : List TypeKey}
    {other : Nat → TypeKey → Option (Outcome Instance)}
    (same : ∀ parameter,
      container.ComesTo keys parameter
      → ∀ made, other made parameter = container.resolveWithin depth made parameter)
    : resolveEach other made keys = resolveEach (container.resolveWithin depth) made keys := by
  induction keys generalizing made with
  | nil => rfl
  | cons first rest ih =>
      rw [resolveEach, resolveEach, same first comesTo_head]
      cases found : container.resolveWithin depth made first with
      | none => rfl
      | some head =>
          simp only [Option.bind_some, Outcome.andThen]
          cases ended : (head.typed first).result with
          | error fault => rfl
          | ok value =>
              obtain ⟨succeeded, typed⟩ := Outcome.typed_result_eq_ok_iff.mp ended
              have retrieved : container.Retrieves first :=
                ⟨made, head, value, resolve?_eq_some_iff.mpr ⟨depth, found⟩, succeeded, typed⟩
              dsimp only
              rw [ih fun parameter comes => same parameter (comes.cons retrieved)]

/-- A binding changes nothing about a key whose resolution never looks it up, by induction on the
depth.
-/
theorem resolveWithin_bind_of_not_looksUp {value : Instance} {key : TypeKey}
    (apart : ¬ container.LooksUp key value.type) (depth made : Nat)
    : (container.bind value.type value).resolveWithin depth made key
      = container.resolveWithin depth made key := by
  induction depth generalizing made key with
  | zero => rfl
  | succ depth ih =>
      have differs : key ≠ value.type := fun same => apart (same ▸ .refl)
      have bindings
          : (container.bind value.type value).bindings.get? key = container.bindings.get? key := by
        rw [bind, Bindings.get?_insert, if_neg differs]
      have recipes : (container.bind value.type value).recipes = container.recipes := rfl
      unfold resolveWithin
      rw [bindings, recipes]
      cases unbound : container.bindings.get? key with
      | some held => rfl
      | none =>
          cases found : Recipe.find? container.recipes key with
          | none => rfl
          | some recipe =>
              dsimp only
              rw [resolveEach_congr fun parameter comes made => ih ?_ made]
              exact fun looks => apart (.head ⟨unbound, recipe, found, comes⟩ looks)

-----------------------------------------------------------------------------------------
-- What is bound instead of made
-----------------------------------------------------------------------------------------

/-- With one more binding, what succeeded goes on to do so, level by level. What is found is of the
same type as before, or of the type that was asked for; and there are no calls but those of before.
-/
theorem invariant_bind (container : Container) (bound : Instance)
    : container.Invariant
        (fun _ key outcome =>
          ∀ value,
            outcome.result = .ok value
            → ∀ later,
                ∃ other result,
                  (container.bind bound.type bound).resolve? later key = some other
                  ∧ other.result = .ok result
                  ∧ (result.type = value.type ∨ result.type = key)
                  ∧ (other.calls.map Call.signature).Sublist (outcome.calls.map Call.signature))
        (fun _ keys outcome =>
          ∀ values,
            outcome.result = .ok values
            → values.map Instance.type = keys
              ∧ ∀ later,
                  ∃ other results,
                    resolveEach (container.bind bound.type bound).resolve? later keys = some other
                    ∧ other.result = .ok results
                    ∧ results.map Instance.type = keys
                    ∧ (other.calls.map Call.signature).Sublist
                        (outcome.calls.map Call.signature)) where
  taken {made key value} held := by
    intro found same later
    obtain rfl := Except.ok.inj same
    by_cases here : key = bound.type
    · have taken : (container.bind bound.type bound).bindings.get? key = some bound := by
        rw [bind, Bindings.get?_insert, if_pos here]
      exact ⟨_, _, (invariant_resolves _).taken taken, rfl, .inr here.symm, .slnil⟩
    · have taken : (container.bind bound.type bound).bindings.get? key = some value := by
        rw [bind, Bindings.get?_insert, if_neg here, held]
      exact ⟨_, _, (invariant_resolves _).taken taken, rfl, .inl rfl, .slnil⟩
  missing _ _ := by simp
  spoiled _ _ _ _ := by simp
  built {made key recipe values parts} unbound found parameters succeeded := by
    intro value same later
    obtain rfl := Except.ok.inj same
    obtain ⟨types, others⟩ := parameters values succeeded
    by_cases here : key = bound.type
    · have taken : (container.bind bound.type bound).bindings.get? key = some bound := by
        rw [bind, Bindings.get?_insert, if_pos here]
      exact
        ⟨_, _, (invariant_resolves _).taken taken, rfl, .inr here.symm, List.nil_sublist _⟩
    · have unbound : (container.bind bound.type bound).bindings.get? key = none := by
        rw [bind, Bindings.get?_insert, if_neg here, unbound]
      obtain ⟨other, results, resolved, done, typesOther, fewer⟩ := others later
      refine ⟨_, _, (invariant_resolves _).built unbound found resolved done, rfl, .inl rfl, ?_⟩
      rw [List.map_append, List.map_append]
      refine fewer.append ?_
      simp [Call.signature, types, typesOther]
  finished := by
    intro made values same
    obtain rfl := Except.ok.inj same
    exact ⟨rfl, fun later => ⟨_, [], rfl, rfl, rfl, .slnil⟩⟩
  stuck _ _ := by simp
  advanced {made first rest value head others} one succeeded typed each := by
    intro values same
    obtain ⟨further, remaining, rfl⟩ := map_eq_ok_iff.mp same
    obtain ⟨types, rests⟩ := each further remaining
    refine ⟨by simp [typed, types], fun later => ?_⟩
    obtain ⟨front, result, resolved, found, ofType, fewer⟩ := one value succeeded later
    obtain ⟨back, results, resolvedRest, foundRest, typesRest, fewerRest⟩ := rests front.made
    have ofType : result.type = first := ofType.elim (·.trans typed) id
    refine
      ⟨_, result :: results, (invariant_resolves _).advanced resolved found ofType resolvedRest,
        map_eq_ok_iff.mpr ⟨results, foundRest, rfl⟩, by simp [ofType, typesRest], ?_⟩
    rw [List.map_append, List.map_append]
    exact fewer.append fewerRest

/-- Binding more is monotone and local. A key that is retrieved is also retrieved when another instance
is bound under its type, in place of the one bound before if there was one; the calls are then some of
those made without it, in the same order. A key whose resolution never looks that type up comes to the
same: no end, the same fault, or what differs in the numbers of made instances alone, after calls that
do so too. The first part is an invariant of resolutions over the larger container; for the second, the
resolution is the same one with numbers that start elsewhere.
-/
theorem resolveTyped?_bind (container : Container) (bound : Instance) (key : TypeKey)
    : (∀ made outcome value,
        container.resolveTyped? made key = some outcome
        → outcome.result = .ok value
        → ∀ later,
            ∃ other result,
              (container.bind bound.type bound).resolveTyped? later key = some other
              ∧ other.result = .ok result
              ∧ (other.calls.map Call.signature).Sublist (outcome.calls.map Call.signature))
      ∧ (¬ container.LooksUp key bound.type
        → ∀ made later,
            Option.Rel (container.AlikeOutcomes made later (container.Alike made later))
              (container.resolveTyped? made key)
              ((container.bind bound.type bound).resolveTyped? later key)) := by
  constructor
  · intro made outcome value ends succeeded later
    obtain ⟨untyped, resolved, rfl⟩ := Option.map_eq_some_iff.mp ends
    obtain ⟨found, typed⟩ := Outcome.typed_result_eq_ok_iff.mp succeeded
    obtain ⟨other, result, resolvedOther, foundOther, ofType, fewer⟩ :=
      (container.invariant_bind bound).resolveWithin resolved value found later
    have ofType : result.type = key := ofType.elim (·.trans typed) id
    refine ⟨other.typed key, result, ?_, ?_, ?_⟩
    · rw [resolveTyped?, resolvedOther, Option.map_some]
    · exact Outcome.typed_result_eq_ok_iff.mpr ⟨foundOther, ofType⟩
    · rw [Outcome.typed_eq key other, Outcome.typed_eq key untyped]
      exact fewer
  · intro apart made later
    have unchanged
        : (container.bind bound.type bound).resolve? later key = container.resolve? later key :=
      resolveWithin_bind_of_not_looksUp apart container.depthLimit later
    rw [resolveTyped?, resolveTyped?, unchanged]
    refine rel_map (container.resolveWithin_renumbered made later container.depthLimit 0 key) ?_
    exact fun _ _ same => same.typed key

/-- The sides of the diamond can share a client that the host binds. Nobody asks for a session. -/
theorem resolveTyped?_bind_diamond
    : (∃ other result,
        (diamond.bind ⟨"Client"⟩ (.mk 2 ⟨"Client"⟩ none [])).resolveTyped? 2 ⟨"View"⟩ = some other
        ∧ other.result = .ok result
        ∧ (other.calls.map (·.makes.name)).Sublist ["Client", "Left", "Client", "Right", "View"])
      ∧ Option.Rel (diamond.AlikeOutcomes 1 2 (diamond.Alike 1 2))
          (diamond.resolveTyped? 1 ⟨"View"⟩)
          ((diamond.bind ⟨"Session"⟩ (.mk 2 ⟨"Session"⟩ none [])).resolveTyped? 2 ⟨"View"⟩) := by
  constructor
  · obtain ⟨monotone, _⟩ := resolveTyped?_bind diamond (.mk 2 ⟨"Client"⟩ none []) ⟨"View"⟩
    obtain ⟨outcome, ends⟩ : ∃ outcome, diamond.resolveTyped? 1 ⟨"View"⟩ = some outcome :=
      ⟨_, rfl⟩
    have succeeds : outcome.result = .ok diamondView :=
      Option.some.inj (congrArg (Option.map Outcome.result) ends).symm
    have called
        : outcome.calls.map (·.makes.name) = ["Client", "Left", "Client", "Right", "View"] :=
      congrArg (List.map (·.makes.name))
        (Option.some.inj (congrArg (Option.map Outcome.calls) ends).symm)
    obtain ⟨other, result, resolved, found, fewer⟩ := monotone 1 outcome diamondView ends succeeds 2
    refine ⟨other, result, resolved, found, ?_⟩
    have names := fewer.map fun signature => signature.1.name
    rw [List.map_map, List.map_map] at names
    exact called ▸ names
  · obtain ⟨_, is_local⟩ := resolveTyped?_bind diamond (.mk 2 ⟨"Session"⟩ none []) ⟨"View"⟩
    apply is_local
    intro looks
    obtain ⟨outcome, ends⟩ : ∃ outcome, diamond.resolve? 1 ⟨"View"⟩ = some outcome :=
      ⟨_, rfl⟩
    have succeeds : outcome.result = .ok diamondView :=
      Option.some.inj (congrArg (Option.map Outcome.result) ends).symm
    have told
        : Event.tookBound "Session" ∉ outcome.events
          ∧ Event.constructing "Session" ∉ outcome.events := by
      obtain rfl := Option.some.inj ends
      decide
    rcases tells_of_looksUp looks ends with taken | built | missing
    · exact absurd taken told.1
    · exact absurd built told.2
    · simp [missing] at succeeds

end Container

end Wiring
