import Wiring.Index.Add
import Wiring.Marker
import Wiring.Proofs.Source.Grammar.AlikeSignatures
import Wiring.Proofs.Source.Grammar.Keeping

/-! The marker and the index agree on constructors. The marker sees the tokens of one function, without the
attribute that it is; the index reads the function as a member of an implementation, with all attributes and
with other members behind it. Both find the same signature, and where the marker finds a fault with it, the
index has the same reason not to take it for a constructor.
-/

namespace Wiring

namespace Source

open Grammar Token

/-- Whether the word `default` stands behind the attributes and the visibility of a member. -/
def marksDefault (nested : Nested) : Parser Bool := do
  discard (outerAttributes nested)
  discard visibility
  sees (isWord "default")

/-- Whether the second tokens are the first ones without one of the attributes in front of them. -/
inductive Unmarked : Tokens → Tokens → Prop
  | here (joint : Bool) (inner tokens : Tokens)
    : Unmarked (.mark '#' joint :: .group .bracket inner :: tokens) tokens
  | later (joint : Bool) (inner : Tokens) {tokens others : Tokens} (rest : Unmarked tokens others)
    : Unmarked (.mark '#' joint :: .group .bracket inner :: tokens)
        (.mark '#' joint :: .group .bracket inner :: others)

variable {nested : Nested}

-----------------------------------------------------------------------------------------
-- What a member is read from
-----------------------------------------------------------------------------------------

/-- What holds of the last answer of a sequence holds of its answer. -/
theorem holds_of_bind {α β : Type} {parser : Parser α} {next : α → Parser β} {good : β → Prop}
    (holds : ∀ answer position result after, next answer position = some (result, after) → good result)
    {before after : Position} {result : β} (read : (parser >>= next) before = some (result, after))
    : good result := by
  obtain ⟨answer, middle, _, read⟩ := exists_of_bind read
  exact holds answer middle result after read

/-- A function of an implementation is its attributes, its visibility, and then its form, by the steps
in which a member is read; all other forms of members answer no function.
-/
theorem exists_form_of_implMember {before after : Position} {attributes : List Attribute}
    {signature : Signature}
    (read : implMember nested before = some (.function attributes signature, after))
    (plain : ∀ after, marksDefault nested before ≠ some (true, after))
    : ∃ found middle visible start more last,
        outerAttributes nested before = some (found, middle)
        ∧ visibility middle = some (visible, start)
        ∧ functionForm nested false start = some ((signature, more, true), last)
        ∧ last.rest = after.rest := by
  unfold implMember at read
  obtain ⟨kept, last, read, same⟩ := rest_of_orKept read
  obtain ⟨found, middle, attributesRead, read⟩ := exists_of_bind read
  obtain ⟨visible, start, visibilityRead, read⟩ := exists_of_bind read
  have word : isWord "default" start.rest = false := by
    have looked := plain start
    unfold marksDefault at looked
    rw [bind_of_some (discard_of_some attributesRead), bind_of_some (discard_of_some visibilityRead),
      sees_apply] at looked
    cases word : isWord "default" start.rest with
    | false => rfl
    | true => simp [word] at looked
  rw [bind_of_some (front_apply start), word, Bool.false_and, if_neg Bool.false_ne_true] at read
  dsimp only at read
  rw [bind_of_some (front_apply start), ite_run] at read
  split at read
  · obtain ⟨⟨form, more, hasBody⟩, _, formRead, read⟩ := exists_of_bind read
    obtain ⟨answer, rfl⟩ := Prod.mk.inj (Option.some.inj read)
    cases hasBody with
    | false => cases (Prod.mk.inj answer).1
    | true =>
        obtain ⟨_, rfl⟩ := Member.function.inj (Prod.mk.inj answer).1
        exact ⟨found, middle, visible, start, more, _, attributesRead, visibilityRead, formRead, same⟩
  · -- anything else is no function
    have other : ∀ isKept position result after,
        (pure (Member.other found, isKept) : Parser (Member × Bool)) position = some (result, after)
        → result.1 = .other found := by
      intro isKept position result after read
      obtain ⟨rfl, _⟩ := Prod.mk.inj (Option.some.inj read)
      rfl
    have never : (Member.function attributes signature, kept).1 = .other found := by
      rw [ite_run, ite_run] at read
      split at read
      · exact holds_of_bind (fun _ => other _) read
      · split at read
        · exact holds_of_bind (fun _ => other _) read
        · exact holds_of_bind (fun _ _ _ _ => holds_of_bind (fun _ => other _)) read
    cases never

/-- The form of a function with a body is its signature, and a group of braces. No semicolon ends it,
so a body follows, and a body is one group.
-/
theorem exists_body_of_functionForm {start last : Position} {signature : Signature}
    {more : List Attribute} (read : functionForm nested false start = some ((signature, more, true), last))
    : ∃ inner news middle,
        Grammar.signature nested false start = some (signature, ⟨.group .brace inner :: last.rest, middle⟩)
        ∧ ∀ rest printed,
            functionBody nested ⟨.group .brace inner :: rest, printed⟩ = some (more, ⟨rest, news ++ printed⟩) := by
  unfold functionForm at read
  obtain ⟨found, middle, signatureRead, read⟩ := exists_of_bind read
  obtain ⟨ended, behind, markRead, read⟩ := exists_of_bind read
  cases ended with
  | true => cases (Prod.mk.inj (Option.some.inj read)).1
  | false =>
      have still : middle = behind := by
        rw [optionalMark_apply] at markRead
        split at markRead
        · obtain ⟨_, _, same⟩ := Option.map_eq_some_iff.mp markRead
          cases (Prod.mk.inj same).1
        · exact (Prod.mk.inj (Option.some.inj markRead)).2
      subst still
      rw [if_neg Bool.false_ne_true] at read
      obtain ⟨body, after, bodyRead, read⟩ := exists_of_bind read
      obtain ⟨answer, rfl⟩ := Prod.mk.inj (Option.some.inj read)
      obtain ⟨rfl, rfl⟩ : found = signature ∧ body = more := by simpa using answer
      obtain ⟨inner, _, front, _⟩ := group_eq_some bodyRead
      obtain ⟨taken, news, -, whole, -, always⟩ := takes_group _ _ _ _ _ bodyRead
      have alone : taken = [.group .brace inner] :=
        List.append_cancel_right (whole.symm.trans front)
      subst alone
      obtain ⟨_, printed⟩ := middle
      obtain rfl := front
      exact ⟨inner, news, printed, signatureRead, always⟩

-----------------------------------------------------------------------------------------
-- Without an attribute
-----------------------------------------------------------------------------------------

/-- An attribute is a mark and a bracket group, whose contents are read to their end. -/
theorem outerAttribute_apply (joint : Bool) (inner rest printed : Tokens)
    : outerAttribute nested ⟨.mark '#' joint :: .group .bracket inner :: rest, printed⟩
      = ((attributeContents nested).allPrinted? inner).map fun (found, shown) =>
          (found, ⟨rest, .group .bracket shown :: .mark '#' false :: printed⟩) :=
  (rfl)

/-- A hash mark starts an attribute. -/
theorem startsAttribute (joint : Bool) (rest : Tokens)
    : isMark "#" (.mark '#' joint :: rest) = true :=
  (rfl)

variable {endings : Endings}

/-- The attributes that are left in front of a function are read where all of them were, and end in front of
the same tokens. The induction is on those before the one that is taken away; behind it the attributes are
read alike.
-/
theorem exists_many_of_unmarked {read others : Tokens} (unmarked : Unmarked read others) {fuel more : Nat}
    (enough : read.length < fuel) (enoughToo : others.length < more)
    {left printed shown : Tokens} (printedToo : Tokens) {found : List Attribute}
    (was
      : many (isMark "#") (outerAttribute nested) fuel ⟨read ++ endings.here, printed⟩
        = some (found, ⟨left ++ endings.here, shown⟩))
    : ∃ foundToo shownToo,
        many (isMark "#") (outerAttribute nested) more ⟨others ++ endings.there, printedToo⟩
        = some (foundToo, ⟨left ++ endings.there, shownToo⟩) := by
  induction unmarked generalizing fuel more printed found printedToo with
  | here joint inner tokens =>
      simp only [List.length_cons] at enough
      obtain ⟨fuel, rfl⟩ := Nat.exists_eq_add_of_le' (show 1 ≤ fuel by omega)
      obtain ⟨_, rest, middle, first, further, -⟩ := exists_of_many_succ (startsAttribute joint _) was
      obtain ⟨_, _, same⟩ := Option.map_eq_some_iff.mp first
      obtain ⟨_, rfl⟩ := Prod.mk.inj same
      have alike : Alike endings (tokens.length + 1) (many _ (outerAttribute nested) fuel) (many _ _ more) :=
        .many (blind_isMark "#") eats_outerAttribute (fun _ => alike_outerAttribute) (by omega) enoughToo
      obtain ⟨news, -, readToo⟩ := alike.same printedToo (Nat.lt_succ_self _) further
      exact ⟨rest, _, readToo⟩
  | later joint inner _ ih =>
      simp only [List.length_cons] at enough enoughToo
      obtain ⟨fuel, rfl⟩ := Nat.exists_eq_add_of_le' (show 1 ≤ fuel by omega)
      obtain ⟨more, rfl⟩ := Nat.exists_eq_add_of_le' (show 1 ≤ more by omega)
      obtain ⟨_, rest, middle, first, further, -⟩ := exists_of_many_succ (startsAttribute joint _) was
      obtain ⟨⟨own, inside⟩, contents, same⟩ := Option.map_eq_some_iff.mp first
      obtain ⟨_, rfl⟩ := Prod.mk.inj same
      obtain ⟨restToo, shownToo, readToo⟩ :=
        ih (show _ < fuel by omega) (show _ < more by omega)
          (.group .bracket inside :: .mark '#' false :: printedToo) further
      refine ⟨own :: restToo, shownToo, ?_⟩
      rw [many_succ, List.cons_append, if_pos (startsAttribute joint _), List.cons_append,
        outerAttribute_apply, contents]
      dsimp only [Option.map_some, Option.bind_some]
      rw [readToo]
      rfl

/-- Attributes are read with the marked one left out, up to where the others end. -/
theorem exists_outerAttributes_of_unmarked {read others : Tokens} (unmarked : Unmarked read others)
    {left printed shown : Tokens} (printedToo : Tokens) {found : List Attribute}
    (was
      : outerAttributes nested ⟨read ++ endings.here, printed⟩
        = some (found, ⟨left ++ endings.here, shown⟩))
    : ∃ foundToo shownToo,
        outerAttributes nested ⟨others ++ endings.there, printedToo⟩
        = some (foundToo, ⟨left ++ endings.there, shownToo⟩) :=
  exists_many_of_unmarked unmarked (Alike.length_le ..) (Alike.length_le ..) printedToo was

/-- An attribute in front of a body in braces is none of its own tokens. -/
theorem exists_behind_attribute {head tokens inner inside : Tokens} {joint : Bool}
    (same
      : .mark '#' joint :: .group .bracket inside :: tokens = head ++ [Token.group .brace inner])
    : ∃ others,
        head = .mark '#' joint :: .group .bracket inside :: others
        ∧ tokens = others ++ [Token.group .brace inner] := by
  match head, same with
  | [], same => simp at same
  | [_], same => simp at same
  | first :: second :: head, same =>
      simp only [List.cons_append, List.cons.injEq] at same
      obtain ⟨rfl, rfl, rfl⟩ := same
      exact ⟨head, rfl, rfl⟩

/-- A body in braces is no attribute. -/
theorem Unmarked.exists_head {head member item inner : Tokens} (unmarked : Unmarked member item)
    (same : member = head ++ [Token.group .brace inner])
    : ∃ others, item = others ++ [Token.group .brace inner] ∧ Unmarked head others := by
  induction unmarked generalizing head with
  | here joint found tokens =>
      obtain ⟨others, rfl, rfl⟩ := exists_behind_attribute same
      exact ⟨others, rfl, .here ..⟩
  | later joint found _ ih =>
      obtain ⟨behind, rfl, rest⟩ := exists_behind_attribute same
      obtain ⟨others, rfl, left⟩ := ih rest
      exact ⟨_, rfl, .later joint found left⟩

/-- What is left in the end was left in between. -/
theorem exists_append_of_suffix {left rest tokens : Tokens} (suffix : left ++ rest <:+ tokens)
    : ∃ between, tokens = between ++ rest := by
  obtain ⟨before, rfl⟩ := suffix
  exact ⟨before ++ left, (List.append_assoc ..).symm⟩

/-- A function with a body that was read as a member is read as well without one of its attributes and
without what stands behind it. Attributes, visibility and signature are read alike where another body
ends what they are read from.
-/
theorem functionWithBody_of_implMember {member item rest printed shown : Tokens}
    {attributes : List Attribute} {signature : Signature} (inside : ∀ endings, nested.Alike endings)
    (read
      : implMember nested ⟨member ++ rest, printed⟩
        = some (.function attributes signature, ⟨rest, shown⟩))
    (plain : ∀ after, marksDefault nested ⟨member ++ rest, printed⟩ ≠ some (true, after))
    (unmarked : Unmarked member item)
    : ∃ last, functionWithBody nested ⟨item, []⟩ = some (signature, ⟨[], last⟩) := by
  obtain ⟨found, ⟨behind, _⟩, visible, ⟨start, _⟩, more, last, attributesRead, visibilityRead, formRead,
    same⟩ := exists_form_of_implMember read plain
  obtain ⟨inner, news, middle, signatureRead, bodyRead⟩ := exists_body_of_functionForm formRead
  rw [same] at signatureRead
  -- the body ends what the function is read from, whatever stands behind it
  let endings : Endings := ⟨.brace, inner, rest, []⟩
  have signatureAlike (limit : Nat) : Alike endings limit (Grammar.signature nested false) _ :=
    alike_signature (inside endings) false
  have visibilityAlike (limit : Nat) : Alike endings limit visibility visibility := alike_visibility
  obtain ⟨unnamed, rfl⟩ : ∃ unnamed, start = unnamed ++ endings.here := by
    obtain ⟨unnamed, same⟩ := (signatureAlike 0).leaves _ _ _ signatureRead
    exact ⟨unnamed, same.symm⟩
  obtain ⟨bare, rfl⟩ : ∃ bare, behind = bare ++ endings.here :=
    exists_append_of_suffix ((visibilityAlike 0).leaves _ _ _ visibilityRead)
  have attributesAlike : Alike endings 0 (outerAttributes nested) _ := alike_outerAttributes
  obtain ⟨head, rfl⟩ : ∃ head, member = head ++ [Token.group .brace inner] := by
    obtain ⟨head, same⟩ := exists_append_of_suffix (attributesAlike.leaves _ _ _ attributesRead)
    exact ⟨head, List.append_cancel_right (same.trans (by simp [endings, Endings.here]))⟩
  obtain ⟨others, rfl, left⟩ := unmarked.exists_head rfl
  rw [List.append_assoc] at attributesRead
  change outerAttributes nested ⟨head ++ endings.here, _⟩ = _ at attributesRead
  change Grammar.signature nested false _ = some (signature, ⟨[] ++ endings.here, _⟩) at signatureRead
  obtain ⟨_, above, attributesReadToo⟩ := exists_outerAttributes_of_unmarked left [] attributesRead
  obtain ⟨named, -, visibilityReadToo⟩ := (visibilityAlike _).same above (Nat.lt_succ_self _) visibilityRead
  obtain ⟨signed, -, signatureReadToo⟩ :=
    (signatureAlike _).same (named ++ above) (Nat.lt_succ_self _) signatureRead
  refine ⟨news ++ (signed ++ (named ++ above)), ?_⟩
  change functionWithBody nested ⟨others ++ endings.there, []⟩ = _
  unfold functionWithBody functionForm
  rw [bind_of_some (discard_of_some attributesReadToo), bind_of_some (discard_of_some visibilityReadToo),
    bind_assoc, bind_of_some signatureReadToo]
  have unmarked : optionalMark ";" ⟨[] ++ endings.there, signed ++ (named ++ above)⟩ = some (false, _) := rfl
  rw [bind_assoc, bind_of_some unmarked, if_neg Bool.false_ne_true, bind_assoc]
  change (functionBody nested >>= _) ⟨.group .brace inner :: [], _⟩ = _
  rw [bind_of_some (bodyRead [] _)]
  rfl

-----------------------------------------------------------------------------------------
-- What the marker finds
-----------------------------------------------------------------------------------------

/-- A function is read alike by grammars that agree inside of it, part by part. -/
theorem agree_functionWithBody {limit : Nat} {first second : Nested} (inside : first.Agree second limit)
    : Agree (limit + 1) (functionWithBody first) (functionWithBody second) := by
  refine (agree_outerAttributes inside).discard.bind fun _ => .skip leaves_visibility fun _ => ?_
  exact (agree_functionForm inside false).bind fun _ => .after (leaves_require _) fun _ => .pure _

/-- Without its mark a member weighs no more. -/
theorem Unmarked.weightOf_le {member item : Tokens} (unmarked : Unmarked member item)
    : weightOf item ≤ weightOf member := by
  induction unmarked with
  | here joint inner tokens =>
      simp only [weightOf]
      omega
  | later joint inner _ ih =>
      simp only [weightOf]
      omega

/-- The marker finds the signature that was read as a member, if the depth suffices for its tokens. -/
theorem wholeFunction?_of_implMember {depth : Nat} {member item rest printed shown : Tokens}
    {attributes : List Attribute} {signature : Signature} (deep : 16 * weightOf member ≤ depth)
    (read
      : implMember (language depth) ⟨member ++ rest, printed⟩
        = some (.function attributes signature, ⟨rest, shown⟩))
    (plain : ∀ after, marksDefault (language depth) ⟨member ++ rest, printed⟩ ≠ some (true, after))
    (unmarked : Unmarked member item)
    : wholeFunction? item = some signature := by
  obtain ⟨last, readToo⟩ :=
    functionWithBody_of_implMember (fun _ => alike_language depth) read plain unmarked
  have lighter := unmarked.weightOf_le
  have agree : (languageFor item).Agree (language depth) (weightOf item) :=
    agree_language _ (Nat.le_add_right ..) (by omega)
  unfold wholeFunction? Parser.all?
  rw [(agree_functionWithBody agree ⟨item, []⟩ (Nat.lt_succ_self _)).1, readToo]

end Source

/-- The reason not to take a function for a constructor where the marker finds a fault with its signature. -/
def MarkerFault.objection? : MarkerFault → Option Objection
  | takesSelf => some .takesSelf
  | isAsync => some .isAsync
  | isGeneric => some .isGeneric
  | noOutput => some .wrongOutput
  | hasArguments | notAFunction => none

namespace Source

open Grammar Token

/-- What returns nothing does not return its owner. -/
theorem Signature.returnsOwner_of_isNone {signature : Signature} (silent : signature.output.isNone)
    (owner : Option SpelledPath)
    : signature.returnsOwner owner = false := by
  simp [Signature.returnsOwner, Option.isNone_iff_eq_none.mp silent]

/-- The first fault of a signature is the first reason against it, in an implementation of a type by itself. -/
theorem Signature.objection?_of_markerFault? {signature : Signature} {fault : MarkerFault}
    {owner : Option SpelledPath} (nominal : owner.isSome)
    (faulty : signature.markerFault? = some fault)
    : ∃ reason, fault.objection? = some reason ∧ signature.objection? false owner = some reason := by
  have owned : owner.isNone = false := by rw [← Option.not_isSome, nominal]; rfl
  unfold Signature.objection?
  rw [if_neg Bool.false_ne_true, owned, if_neg Bool.false_ne_true]
  unfold Signature.markerFault? at faulty
  split at faulty
  · rename_i takesSelf
    obtain rfl := Option.some.inj faulty
    exact ⟨_, rfl, if_pos takesSelf⟩
  · rename_i selfless
    rw [if_neg selfless]
    split at faulty
    · rename_i isAsync
      obtain rfl := Option.some.inj faulty
      exact ⟨_, rfl, if_pos isAsync⟩
    · rename_i immediate
      rw [if_neg immediate]
      split at faulty
      · rename_i isGeneric
        obtain rfl := Option.some.inj faulty
        exact ⟨_, rfl, if_pos isGeneric⟩
      · rename_i plain
        rw [if_neg plain]
        split at faulty
        · rename_i silent
          obtain rfl := Option.some.inj faulty
          exact ⟨_, rfl, by rw [returnsOwner_of_isNone silent]; rfl⟩
        · contradiction

/-- A function without the word `default` that is read with a body in an implementation of a type by itself:
where the marker, without arguments and for any of the attributes, finds a fault with it, the index has the
same reason not to take it for a constructor, and finds that reason first as well. What the index takes for a
constructor, the marker accepts.
-/
theorem markerFault?_agrees {depth : Nat} {member item rest printed shown : Tokens}
    {attributes : List Attribute} {signature : Signature} {block : ImplBlock}
    (deep : 16 * weightOf member ≤ depth)
    (read
      : implMember (language depth) ⟨member ++ rest, printed⟩
        = some (.function attributes signature, ⟨rest, shown⟩))
    (plain : ∀ after, marksDefault (language depth) ⟨member ++ rest, printed⟩ ≠ some (true, after))
    (unmarked : Unmarked member item) (inherent : block.ofTrait = false) (nominal : block.owner?.isSome)
    : let objection := signature.objection? block.ofTrait (block.owner?.map TypePath.spelled)
      (∀ fault, markerFault? [] item = some fault →
        ∃ reason, fault.objection? = some reason ∧ objection = some reason)
      ∧ (objection = none → markerFault? [] item = none) := by
  have found : markerFault? [] item = signature.markerFault? := by
    unfold markerFault?
    rw [wholeFunction?_of_implMember deep read plain unmarked]
    rfl
  dsimp only
  rw [found, inherent]
  have reasons : ∀ fault, signature.markerFault? = some fault → ∃ reason, fault.objection? = some reason
      ∧ signature.objection? false (block.owner?.map TypePath.spelled) = some reason :=
    fun fault => Signature.objection?_of_markerFault? (by rwa [Option.isSome_map])
  refine ⟨reasons, fun accepted => ?_⟩
  cases faulty : signature.markerFault? with
  | none => rfl
  | some fault =>
      obtain ⟨reason, _, refused⟩ := reasons fault faulty
      rw [accepted] at refused
      contradiction

/-- `#[inject] #[must_use] pub async fn new(&self) {}`. -/
private def asyncMethod : Tokens :=
  [.mark '#' false, .group .bracket [.word "inject" 1],
    .mark '#' false, .group .bracket [.word "must_use" 1],
    .word "pub" 1, .word "async" 1, .word "fn" 1, .word "new" 1,
    .group .paren [.mark '&' false, .word "self" 1], .group .brace []]

/-- An async constructor. -/
private def asyncSignature : Signature where
  name := "new"
  line := 1
  isAsync := true
  isGeneric := false
  takesSelf := true
  parameters := []
  output := none

/-- The block that it stands in. -/
private def clientBlock : ImplBlock where
  isGeneric := false
  ofTrait := false
  owner? := some ⟨false, [⟨"Client", .none⟩]⟩
  members := []

/-- The method has three faults, of which its receiver is the first one for both; here another such
method stands behind it. The method is read as a member, and does not start with `default`.
-/
theorem markerFault?_agrees_asyncMethod
    : markerFault? [] (asyncMethod.drop 2) = some .takesSelf
      ∧ asyncSignature.objection? false (some ⟨false, ["Client"]⟩) = some .takesSelf := by
  have read
      : ∃ attributes shown,
          implMember (language 300) ⟨asyncMethod ++ asyncMethod, []⟩
          = some (.function attributes asyncSignature, ⟨asyncMethod, shown⟩) :=
    ⟨_, _, rfl⟩
  have looked
      : ∃ after, marksDefault (language 300) ⟨asyncMethod ++ asyncMethod, []⟩ = some (false, after) :=
    ⟨_, rfl⟩
  obtain ⟨attributes, shown, read⟩ := read
  obtain ⟨_, looked⟩ := looked
  have plain : ∀ after,
      marksDefault (language 300) ⟨asyncMethod ++ asyncMethod, []⟩ ≠ some (true, after) := by
    intro after contrary
    cases looked.symm.trans contrary
  have faulty : markerFault? [] (asyncMethod.drop 2) = some .takesSelf := rfl
  obtain ⟨reason, same, refused⟩ :=
    (markerFault?_agrees (by decide) read plain (.here ..)
      (show clientBlock.ofTrait = false from rfl) rfl).1 _ faulty
  obtain rfl := Option.some.inj same
  exact ⟨faulty, refused⟩

end Source

end Wiring
