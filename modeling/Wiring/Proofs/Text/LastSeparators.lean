import Wiring.Proofs.Text.Segments

/-! Where a text is taken apart: behind the separators in front of it, and at its last separator. Colons
can stand in any number beside one another, so both places are said by all ways in which the text can be
read.
-/

namespace Wiring.Segments

-----------------------------------------------------------------------------------------
-- Separators in front
-----------------------------------------------------------------------------------------

/-- So many separators, one behind the other. -/
def separators (count : Nat) : List Char :=
  (List.replicate count [':', ':']).flatten

/-- One more separator. -/
theorem separators_succ (count : Nat)
    : separators (count + 1) = ':' :: ':' :: separators count := by
  simp [separators, List.replicate_succ]

/-- The text is separators and then the bare text, which no separator stands in front of. -/
structure Bares (text bare : String) : Prop where
  behind : ∃ count, text.toList = separators count ++ bare.toList
  alone : ¬"::".toList <+: bare.toList

/-- Nothing is dropped where no separator leads. -/
theorem dropLeadingChars_of_alone {chars : List Char} (alone : ¬[':', ':'] <+: chars)
    : dropLeadingChars chars = chars := by
  rw [dropLeadingChars]
  rintro rest rfl
  exact alone ⟨rest, rfl⟩

/-- Leading separators are all dropped, by induction on their number. -/
theorem dropLeadingChars_separators (count : Nat) (chars : List Char)
    : dropLeadingChars (separators count ++ chars) = dropLeadingChars chars := by
  induction count with
  | zero => rfl
  | succ count ih => rw [separators_succ, List.cons_append, List.cons_append, dropLeadingChars, ih]

/-- What is dropped are separators, and none is left in front. -/
theorem exists_separators (chars : List Char)
    : (∃ count, chars = separators count ++ dropLeadingChars chars)
      ∧ ¬[':', ':'] <+: dropLeadingChars chars := by
  fun_induction dropLeadingChars chars with
  | case1 rest ih =>
      obtain ⟨⟨count, same⟩, alone⟩ := ih
      refine ⟨⟨count + 1, ?_⟩, alone⟩
      rw [separators_succ, List.cons_append, List.cons_append, ← same]
  | case2 chars other =>
      refine ⟨⟨0, rfl⟩, ?_⟩
      rintro ⟨rest, same⟩
      exact other rest same.symm

/-- What is left when the separators in front are dropped. -/
theorem bares_iff {text bare : String}
    : Bares text bare ↔ bare = dropLeading text := by
  constructor
  · rintro ⟨⟨count, same⟩, alone⟩
    apply String.toList_inj.mp
    rw [dropLeading, same, dropLeadingChars_separators, String.toList_ofList]
    exact (dropLeadingChars_of_alone alone).symm
  · rintro rfl
    obtain ⟨behind, alone⟩ := exists_separators text.toList
    exact ⟨by simpa [dropLeading] using behind, by simpa [dropLeading] using alone⟩

/-- A separator in front makes no difference. -/
theorem dropLeading_separator (text : String)
    : dropLeading ("::" ++ text) = dropLeading text := by
  simp [dropLeading, dropLeadingChars]

/-- Nothing is left to drop. -/
theorem dropLeading_dropLeading (text : String)
    : dropLeading (dropLeading text) = dropLeading text := by
  have alone := (bares_iff.mpr (rfl : dropLeading text = _)).alone
  exact (bares_iff.mp ⟨⟨0, rfl⟩, alone⟩).symm

-----------------------------------------------------------------------------------------
-- The last separator
-----------------------------------------------------------------------------------------

/-- The text is both parts with a separator between them, and none of its separators begins later. -/
structure PartsAtLast (text before after : String) : Prop where
  parts : text = within before after
  last : ∀ earlier later, text = within earlier later → earlier.length ≤ before.length

/-- The characters of a name in a module. -/
theorem toList_within (home name : String)
    : (within home name).toList = home.toList ++ ':' :: ':' :: name.toList := by
  simp [within]

/-- A text with a separator is split, by induction on what stands in front of it. -/
theorem splitLastChars_ne_none (before after : List Char)
    : splitLastChars (before ++ ':' :: ':' :: after) ≠ none := by
  induction before with
  | nil =>
      rw [List.nil_append]
      unfold splitLastChars
      split <;> simp
  | cons char rest ih =>
      rw [List.cons_append]
      unfold splitLastChars
      split
      · simp
      · rename_i missing
        exact absurd missing ih

/-- No separator begins behind the one that a text is split at, by induction on what stands in front. -/
theorem length_le_of_splitLastChars {earlier later : List Char} {parts : List Char × List Char}
    (found : splitLastChars (earlier ++ ':' :: ':' :: later) = some parts)
    : earlier.length ≤ parts.1.length := by
  induction earlier generalizing parts with
  | nil => exact Nat.zero_le _
  | cons char rest ih =>
      rw [List.cons_append] at found
      unfold splitLastChars at found
      split at found
      · rename_i inner
        obtain rfl := Option.some.inj found
        exact Nat.succ_le_succ (ih inner)
      · rename_i missing
        exact absurd missing (splitLastChars_ne_none rest later)

/-- A text is split at its last separator, since the scan finds none behind it. -/
theorem partsAtLast_of_splitLast? {text before after : String}
    (found : splitLast? text = some (before, after))
    : PartsAtLast text before after := by
  refine ⟨eq_within_of_splitLast? found, fun earlier later same => ?_⟩
  rw [splitLast?, same, toList_within] at found
  obtain ⟨⟨first, last⟩, split, parts⟩ := Option.map_eq_some_iff.mp found
  obtain ⟨rfl, -⟩ := Prod.mk.inj parts
  rw [← String.length_toList, String.length_ofList]
  exact length_le_of_splitLastChars split

/-- A text is split at its last separator. -/
theorem splitLast?_eq_some_iff {text before after : String}
    : splitLast? text = some (before, after) ↔ PartsAtLast text before after := by
  refine ⟨partsAtLast_of_splitLast?, fun ⟨parts, last⟩ => ?_⟩
  have separated : splitLast? text ≠ none := by
    rw [splitLast?, parts, toList_within, ne_eq, Option.map_eq_none_iff]
    exact splitLastChars_ne_none _ _
  obtain ⟨⟨first, rest⟩, found⟩ := Option.ne_none_iff_exists'.mp separated
  have other := partsAtLast_of_splitLast? found
  have length : first.toList.length = before.toList.length :=
    Nat.le_antisymm (last _ _ other.parts) (other.last _ _ parts)
  have same := congrArg String.toList (other.parts.symm.trans parts)
  rw [toList_within, toList_within] at same
  obtain ⟨sameFirst, sameRest⟩ := List.append_inj same length
  obtain rfl := String.toList_inj.mp sameFirst
  have sameRest : rest.toList = after.toList := by simpa using sameRest
  rw [found, String.toList_inj.mp sameRest]

end Wiring.Segments
