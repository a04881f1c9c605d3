import Wiring.Proofs.Artifact.RelativePath
import Wiring.Text.Segments

/-! Paths of texts that are single segments each: such paths can be taken apart in only one way. -/

namespace Wiring.Segments

open Source

/-- A text without separators, or parts of them. -/
def IsSingle (text : String) : Prop :=
  ':' ∉ text.toList

/-- An identifier is a single segment, for it has no colon. -/
theorem isSingle_of_isToken {text : String} (token : Identifier.isToken text = true)
    : IsSingle text := by
  intro member
  have char := Identifier.isContinue_of_mem_token token member
  exact absurd char (by decide)

-----------------------------------------------------------------------------------------
-- The last segment
-----------------------------------------------------------------------------------------

/-- Without a colon there is nothing to split at. -/
theorem splitLastChars_eq_none {chars : List Char} (single : ':' ∉ chars)
    : splitLastChars chars = none := by
  induction chars with
  | nil => rfl
  | cons char rest ih =>
      simp only [List.mem_cons, not_or] at single
      unfold splitLastChars
      rw [ih single.2]
      dsimp only
      split
      · exact absurd rfl single.1
      · rfl

/-- A path is split where its last name begins, by induction on what stands in front. -/
theorem splitLastChars_append (before : List Char) {after : List Char} (single : ':' ∉ after)
    : splitLastChars (before ++ ':' :: ':' :: after) = some (before, after) := by
  induction before with
  | nil =>
      have inner : splitLastChars (':' :: after) = none := by
        unfold splitLastChars
        rw [splitLastChars_eq_none single]
        dsimp only
        split
        · simp at single
        · rfl
      rw [List.nil_append]
      unfold splitLastChars
      rw [inner]
      rfl
  | cons char rest ih =>
      rw [List.cons_append]
      unfold splitLastChars
      rw [ih]

/-- A name in a module is split from it, if it is single. -/
theorem splitLast?_within (home : String) {name : String} (single : IsSingle name)
    : splitLast? (within home name) = some (home, name) := by
  have chars : (within home name).toList = home.toList ++ ':' :: ':' :: name.toList := by
    simp [within]
  rw [splitLast?, chars, splitLastChars_append _ single]
  simp

/-- Different modules or names have different paths. -/
theorem within_inj {home other name otherName : String} (single : IsSingle name)
    (otherSingle : IsSingle otherName) (same : within home name = within other otherName)
    : home = other ∧ name = otherName := by
  have split := splitLast?_within home single
  rw [same, splitLast?_within other otherSingle] at split
  simpa [eq_comm] using split

-----------------------------------------------------------------------------------------
-- All segments
-----------------------------------------------------------------------------------------

/-- A single segment is not split. -/
theorem splitChars_of_single {chars : List Char} (single : ':' ∉ chars)
    : splitChars chars = [chars] := by
  induction chars with
  | nil => rfl
  | cons char rest ih =>
      simp only [List.mem_cons, not_or] at single
      rw [splitChars, ih single.2]
      rintro _ rfl
      exact absurd rfl single.1

/-- What stands in front of the first separator is the first segment, by induction on it. -/
theorem splitChars_append {first : List Char} (single : ':' ∉ first) (rest : List Char)
    : splitChars (first ++ ':' :: ':' :: rest) = first :: splitChars rest := by
  induction first with
  | nil => rw [List.nil_append, splitChars]
  | cons char more ih =>
      simp only [List.mem_cons, not_or] at single
      rw [List.cons_append, splitChars, ih single.2]
      rintro _ rfl
      exact absurd rfl single.1

/-- The same for a text. -/
theorem split_of_single {text : String} (single : IsSingle text)
    : split text = [text] := by
  simp [split, splitChars_of_single single]

/-- Splitting joined segments gives them back. -/
theorem split_join {segments : List String} (some : segments ≠ [])
    (single : ∀ segment ∈ segments, IsSingle segment)
    : split (join segments) = segments := by
  induction segments with
  | nil => contradiction
  | cons first rest ih =>
      obtain ⟨here, later⟩ := List.forall_mem_cons.mp single
      cases rest with
      | nil => exact split_of_single here
      | cons second more =>
          have chars : (join (first :: second :: more)).toList
              = first.toList ++ ':' :: ':' :: (join (second :: more)).toList := by
            simp [join, Text.joinWith_cons_cons]
          have others : split (join (second :: more)) = second :: more := ih (by simp) later
          rw [split] at others ⊢
          rw [chars, splitChars_append here, List.map_cons, others, String.ofList_toList]

/-- A segment at the end is a name in what is before it. -/
theorem join_append_singleton {segments : List String} (some : segments ≠ []) (name : String)
    : join (segments ++ [name]) = within (join segments) name := by
  induction segments with
  | nil => contradiction
  | cons first rest ih =>
      cases rest with
      | nil => rfl
      | cons second more =>
          have ih := ih (by simp)
          simp only [join, within, List.cons_append, Text.joinWith_cons_cons] at ih ⊢
          rw [ih]
          simp only [String.append_assoc]

/-- Splitting leaves at least one segment. -/
theorem split_ne_nil (text : String)
    : split text ≠ [] := by
  simp [split, splitChars_ne_nil]

/-- A name in a module is one more segment of its path. -/
theorem split_within {home name : String} (homeSingle : ∀ segment ∈ split home, IsSingle segment)
    (single : IsSingle name)
    : split (within home name) = split home ++ [name] := by
  calc
    split (within home name)
    _ = split (join (split home ++ [name])) := by
      rw [join_append_singleton (split_ne_nil home), join_split]
    _ = split home ++ [name] := by
      refine split_join (by simp) fun segment member => ?_
      rcases List.mem_append.mp member with inHome | last
      · exact homeSingle segment inHome
      · rw [List.mem_singleton.mp last]
        exact single

-----------------------------------------------------------------------------------------
-- Leading separators
-----------------------------------------------------------------------------------------

/-- A colon alone is no separator. -/
theorem dropLeadingChars_colon {chars : List Char} (alone : chars.head? ≠ some ':')
    : dropLeadingChars (':' :: chars) = ':' :: chars := by
  rw [dropLeadingChars]
  rintro rest same
  obtain ⟨-, rfl⟩ := List.cons.inj same
  exact alone rfl

/-- What is dropped from the front does not depend on what follows, once something else than a colon is
there.
-/
theorem dropLeadingChars_append {chars : List Char}
    (starts : ∃ char ∈ (dropLeadingChars chars).head?, char ≠ ':') (more : List Char)
    : dropLeadingChars (chars ++ more) = dropLeadingChars chars ++ more := by
  fun_induction dropLeadingChars chars with
  | case1 rest ih => exact ih starts
  | case2 chars other =>
      obtain ⟨first, rest, rfl⟩ : ∃ first rest, chars = first :: rest := by
        obtain ⟨char, member, _⟩ := starts
        cases chars with
        | nil => simp at member
        | cons first rest => exact ⟨first, rest, rfl⟩
      have apart : first ≠ ':' := by simpa using starts
      rw [List.cons_append, dropLeadingChars]
      rintro _ same
      exact absurd (List.cons.inj same).1 apart

/-- Only the separators in front of a module stand in front of what is in it. -/
theorem dropLeading_within {home : String}
    (starts : ∃ char ∈ (dropLeading home).toList.head?, char ≠ ':') (name : String)
    : dropLeading (within home name) = within (dropLeading home) name := by
  apply String.toList_inj.mp
  have starts : ∃ char ∈ (dropLeadingChars home.toList).head?, char ≠ ':' := by
    simpa [dropLeading] using starts
  have chars : (within home name).toList = home.toList ++ ':' :: ':' :: name.toList := by
    simp [within]
  rw [dropLeading, chars, dropLeadingChars_append starts]
  simp [within, dropLeading]

/-- A text that starts with anything else has no separators in front. -/
theorem dropLeading_of_starts {text : String} (starts : ∃ char ∈ text.toList.head?, char ≠ ':')
    : dropLeading text = text := by
  obtain ⟨char, first, apart⟩ := starts
  obtain ⟨rest, chars⟩ := List.head?_eq_some_iff.mp first
  have kept : dropLeadingChars (char :: rest) = char :: rest := by
    rw [dropLeadingChars]
    rintro _ same
    exact absurd (List.cons.inj same).1 apart
  rw [dropLeading, chars, kept, ← chars, String.ofList_toList]

/-- Joined segments start as the first one does. -/
theorem starts_join {first : String} (starts : ∃ char ∈ first.toList.head?, char ≠ ':')
    (rest : List String)
    : ∃ char ∈ (join (first :: rest)).toList.head?, char ≠ ':' := by
  obtain ⟨char, leads, apart⟩ := starts
  obtain ⟨more, chars⟩ := List.head?_eq_some_iff.mp leads
  refine ⟨char, ?_, apart⟩
  cases rest <;> simp [join, Text.joinWith_cons_cons, chars]

-----------------------------------------------------------------------------------------
-- Paths of identifiers
-----------------------------------------------------------------------------------------

/-- Whether all segments of a text are identifiers. -/
def IsPath (text : String) : Prop :=
  ∀ segment ∈ split text, Identifier.isToken segment = true

instance (text : String) : Decidable (IsPath text) :=
  inferInstanceAs (Decidable (∀ segment ∈ split text, Identifier.isToken segment = true))

/-- The segments of a path are single. -/
theorem IsPath.isSingle {text : String} (path : IsPath text)
    : ∀ segment ∈ split text, IsSingle segment :=
  fun segment member => isSingle_of_isToken (path segment member)

/-- Identifiers make up a path, as splitting finds them again. -/
theorem isPath_join {segments : List String} (some : segments ≠ [])
    (tokens : ∀ segment ∈ segments, Identifier.isToken segment = true)
    : IsPath (join segments) := by
  rw [IsPath, split_join some fun segment member => isSingle_of_isToken (tokens segment member)]
  exact tokens

/-- A name in a path is a path. -/
theorem isPath_within {home name : String} (path : IsPath home)
    (token : Identifier.isToken name = true)
    : IsPath (within home name) := by
  rw [IsPath, split_within path.isSingle (isSingle_of_isToken token)]
  exact List.forall_mem_append.mpr ⟨path, by simpa using token⟩

/-- Segments may be joined from the front. -/
theorem join_cons_cons (home name : String) (rest : List String)
    : join (home :: name :: rest) = join (within home name :: rest) := by
  cases rest <;> simp [join, within, Text.joinWith_cons_cons, String.append_assoc]

/-- Segments below a path are further segments of it, by induction on them. -/
theorem join_join_cons {segments : List String} (some : segments ≠ []) (rest : List String)
    : join (join segments :: rest) = join (segments ++ rest) := by
  induction rest generalizing segments with
  | nil => rw [List.append_nil, join, Text.joinWith_singleton]
  | cons name rest ih =>
      calc
        join (join segments :: name :: rest)
        _ = join (join (segments ++ [name]) :: rest) := by
          rw [join_cons_cons, join_append_singleton some]
        _ = join (segments ++ name :: rest) := by
          rw [ih (List.append_ne_nil_of_left_ne_nil some _), List.append_assoc,
            List.singleton_append]

/-- Segments below a path are segments of a path, by induction on them. -/
theorem isPath_join_cons {home : String} (path : IsPath home) {rest : List String}
    (tokens : ∀ segment ∈ rest, Identifier.isToken segment = true)
    : IsPath (join (home :: rest)) := by
  induction rest generalizing home with
  | nil => exact path
  | cons name rest ih =>
      obtain ⟨token, tokens⟩ := List.forall_mem_cons.mp tokens
      rw [join_cons_cons]
      exact ih (isPath_within path token) tokens

/-- The two parts of a path are a path and an identifier. -/
theorem IsPath.parts {text home name : String} (path : IsPath text)
    (parts : splitLast? text = some (home, name))
    : IsPath home ∧ Identifier.isToken name = true := by
  have joined := join_split text
  obtain ⟨init, last, same⟩ := List.eq_nil_or_concat (split text) |>.resolve_left (split_ne_nil text)
  rw [List.concat_eq_append] at same
  rw [IsPath, same] at path
  rw [same] at joined
  obtain ⟨tokens, others⟩ := List.forall_mem_append.mp path
  have token := others last (by simp)
  by_cases lone : init = []
  · rw [lone, List.nil_append] at joined
    obtain rfl : last = text := joined
    rw [splitLast?, splitLastChars_eq_none (isSingle_of_isToken token)] at parts
    contradiction
  · rw [← joined, join_append_singleton lone, splitLast?_within _ (isSingle_of_isToken token)] at parts
    obtain ⟨rfl, rfl⟩ := Prod.mk.inj (Option.some.inj parts)
    exact ⟨isPath_join lone tokens, token⟩

/-- A path starts with a character of its first segment. -/
theorem IsPath.starts {text : String} (path : IsPath text)
    : ∃ char ∈ text.toList.head?, char ≠ ':' := by
  obtain ⟨first, rest, same⟩ := List.exists_cons_of_ne_nil (split_ne_nil text)
  have token := path first (by simp [same])
  obtain ⟨char, more, spelled⟩ : ∃ char more, first.toList = char :: more :=
    List.exists_cons_of_ne_nil fun empty =>
      Identifier.ne_empty_of_isToken token (String.toList_inj.mp empty)
  rw [← join_split text, same]
  refine starts_join ⟨char, by simp [spelled], ?_⟩ rest
  rintro rfl
  exact isSingle_of_isToken token (by simp [spelled])

/-- No separator stands in front of a path. -/
theorem IsPath.dropLeading_eq {text : String} (path : IsPath text)
    : dropLeading text = text :=
  dropLeading_of_starts path.starts

/-- Where all that follows the separators in front of a text is a path, the segments of the home are
identifiers, by induction on these separators.
-/
theorem isToken_of_mem_split {home name : String} (single : IsSingle name)
    (path : IsPath (dropLeading (within home name)))
    : ∀ segment ∈ split home, segment = "" ∨ Identifier.isToken segment = true := by
  obtain ⟨chars, rfl⟩ : ∃ chars, home = String.ofList chars := ⟨home.toList, by simp⟩
  fun_induction dropLeadingChars chars with
  | case1 rest ih =>
      have dropped
          : dropLeading (within (String.ofList (':' :: ':' :: rest)) name)
            = dropLeading (within (String.ofList rest) name) := by
        simp [dropLeading, within, dropLeadingChars]
      have segments
          : split (String.ofList (':' :: ':' :: rest)) = "" :: split (String.ofList rest) := by
        simp [split, splitChars]
      rw [dropped] at path
      rw [segments]
      exact List.forall_mem_cons.mpr ⟨.inl rfl, ih path⟩
  | case2 chars other =>
      cases chars with
      | nil => simp [split, splitChars]
      | cons first rest =>
          have begins : first ≠ ':' := by
            rintro rfl
            have stays
                : (dropLeading (within (String.ofList (':' :: rest)) name)).toList.head? = some ':' := by
              cases rest with
              | nil =>
                  have alone : name.toList.head? ≠ some ':' := by
                    intro leads
                    exact single (List.mem_of_mem_head? leads)
                  simp [dropLeading, within, dropLeadingChars, dropLeadingChars_colon alone]
              | cons second rest =>
                  have alone : (second :: rest).head? ≠ some ':' := by
                    intro leads
                    obtain rfl : second = ':' := by simpa using leads
                    exact other rest rfl
                  have alone : (second :: (rest ++ ':' :: ':' :: name.toList)).head? ≠ some ':' := alone
                  simp [dropLeading, within, dropLeadingChars_colon alone]
            obtain ⟨char, leads, apart⟩ := path.starts
            rw [stays] at leads
            exact apart (Option.some.inj leads).symm
          have kept : dropLeadingChars (first :: rest) = first :: rest := by
            rw [dropLeadingChars]
            exact other
          have starts
              : ∃ char ∈ (dropLeading (String.ofList (first :: rest))).toList.head?, char ≠ ':' := by
            simpa [dropLeading, kept] using begins
          rw [dropLeading_within starts] at path
          have home := (path.parts (splitLast?_within _ single)).1
          simp only [dropLeading, String.toList_ofList, kept] at home
          exact fun segment member => .inr (home segment member)

end Wiring.Segments
