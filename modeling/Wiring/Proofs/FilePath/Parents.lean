import Wiring.Proofs.FilePath.Joining

/-! The last step of a path. The parent of a path is spelled by the pieces in front of the last one
that makes a step, and its steps are those of the path but the last. A text with an extension ends in
a name.
-/

namespace Wiring.FilePath

-----------------------------------------------------------------------------------------
-- Texts of pieces
-----------------------------------------------------------------------------------------

/-- No piece has a slash, by the recursion that splits. -/
theorem not_mem_of_mem_splitSlashes {chars piece : List Char} (member : piece ∈ splitSlashes chars)
    : '/' ∉ piece := by
  fun_induction splitSlashes chars generalizing piece with
  | case1 => simp [List.mem_singleton.mp member]
  | case2 rest ih =>
      rcases List.mem_cons.mp member with rfl | member
      · exact List.not_mem_nil
      · exact ih member
  | case3 char rest _ empty => exact absurd empty (splitSlashes_ne_nil rest)
  | case4 char rest noSlash head tail found ih =>
      rw [found] at ih
      rcases List.mem_cons.mp member with rfl | member
      · rw [List.mem_cons, not_or]
        exact ⟨fun same => noSlash same.symm, ih List.mem_cons_self⟩
      · exact ih (List.mem_cons_of_mem head member)

/-- Nor has a piece of a path. -/
theorem not_mem_of_mem_pieces {path : FilePath} {piece : String} (member : piece ∈ path.pieces)
    : '/' ∉ piece.toList := by
  obtain ⟨chars, among, rfl⟩ := List.mem_map.mp member
  rw [String.toList_ofList]
  exact not_mem_of_mem_splitSlashes among

/-- Pieces without slashes are the pieces of what they are joined to. -/
theorem pieces_joinWith {pieces : List String} (some : pieces ≠ [])
    (noSlash : ∀ piece ∈ pieces, '/' ∉ piece.toList)
    : (FilePath.mk (Text.joinWith "/" pieces)).pieces = pieces := by
  induction pieces with
  | nil => contradiction
  | cons first rest ih =>
      obtain ⟨here, later⟩ := List.forall_mem_cons.mp noSlash
      have alone : (FilePath.mk first).pieces = [first] := by
        simp [FilePath.pieces, splitSlashes_of_not_mem here]
      cases rest with
      | nil => exact alone
      | cons second more =>
          rw [Text.joinWith_cons_cons, pieces_append, alone, ih (by simp) later, List.singleton_append]

-----------------------------------------------------------------------------------------
-- Parents
-----------------------------------------------------------------------------------------

/-- A piece is no step exactly if it is silent. -/
theorem innerStep?_eq_none_iff {piece : String}
    : innerStep? piece = none ↔ isSilent piece = true := by
  unfold innerStep? isSilent
  split
  · rename_i silent
    simp [silent]
  · rename_i spoken
    constructor
    · split <;> simp
    · intro silent
      exact absurd (by simpa using silent) spoken

/-- Dropping silent pieces keeps the first piece of a path, and before it all from the last piece on
that makes a step, by induction on the pieces in front of the first one, which are listed from the
back.
-/
theorem dropSilent_spec (back : List String) (first : String)
    : ∃ silent kept,
        back = silent ++ kept
        ∧ silent.filterMap innerStep? = []
        ∧ dropSilent (back ++ [first]) = kept ++ [first]
        ∧ ∀ last ∈ kept.head?, ∃ step, innerStep? last = some step := by
  induction back with
  | nil => exact ⟨[], [], rfl, rfl, rfl, by simp⟩
  | cons piece rest ih =>
      have unfolded
          : dropSilent (piece :: rest ++ [first])
            = if isSilent piece then dropSilent (rest ++ [first]) else piece :: rest ++ [first] := by
        cases rest <;> rfl
      rw [unfolded]
      cases makes : innerStep? piece with
      | none =>
          obtain ⟨silent, kept, rfl, nothing, dropped, ends⟩ := ih
          refine ⟨piece :: silent, kept, rfl, ?_, ?_, ends⟩
          · rw [List.filterMap_cons, makes, nothing]
          · rw [if_pos (innerStep?_eq_none_iff.mp makes), dropped]
      | some step =>
          have spoken : ¬ isSilent piece = true := by
            rw [← innerStep?_eq_none_iff, makes]
            simp
          refine ⟨[], piece :: rest, rfl, rfl, if_neg spoken, ?_⟩
          rintro last leads
          obtain rfl : piece = last := by simpa using leads
          exact ⟨step, makes⟩

/-- A parent has the steps of the path but the last one. What is dropped from the back are silent
pieces, the last one that makes a step, and silent ones again.
-/
theorem steps_parent? {path parent : FilePath} (above : path.parent? = some parent)
    : parent.steps = path.steps.dropLast := by
  have nothing : (FilePath.mk "").steps = [] := by simp [steps, pieces, splitSlashes]
  obtain ⟨first, rest, split⟩ := path.exists_pieces_eq_cons
  obtain ⟨_, _, rfl⟩ := Option.map_eq_some_iff.mp above
  obtain ⟨silent, kept, back, noStep, dropped, ends⟩ := dropSilent_spec rest.reverse first
  have front : rest = kept.reverse ++ silent.reverse := by
    rw [← List.reverse_append, ← back, List.reverse_reverse]
  have noStep : silent.reverse.filterMap innerStep? = [] := by
    rw [List.filterMap_reverse, noStep, List.reverse_nil]
  rw [split, List.reverse_cons, dropped]
  cases kept with
  | nil =>
      -- The path has one step at most, and its parent is the empty path.
      rw [List.reverse_nil, List.nil_append] at front
      rw [List.nil_append, nothing]
      by_cases written : first ≠ "" ∨ rest ≠ []
      · rw [steps_of_pieces split written, front, noStep, List.append_nil]
        cases leadingStep? first <;> rfl
      · obtain ⟨rfl, rfl⟩ : first = "" ∧ rest = [] := by simpa [not_or] using written
        simp [steps, split]
  | cons last above =>
      obtain ⟨step, makes⟩ := ends last (by simp)
      obtain ⟨passed, others, same, passedNoStep, droppedAbove, _⟩ := dropSilent_spec above first
      have more : rest ≠ [] := by simp [front]
      have steps
          : path.steps
            = (leadingStep? first).toList ++ others.reverse.filterMap innerStep? ++ [step] := by
        have passedNoStep : passed.reverse.filterMap innerStep? = [] := by
          rw [List.filterMap_reverse, passedNoStep, List.reverse_nil]
        rw [steps_of_pieces split (.inr more), front, same]
        simp [List.filterMap_append, noStep, passedNoStep, makes]
      rw [steps, List.dropLast_concat]
      have behind : (last :: above ++ [first]) = last :: (above ++ [first]) := rfl
      rw [behind]
      obtain ⟨second, tail, shape⟩ : ∃ second tail, above ++ [first] = second :: tail :=
        List.exists_cons_of_ne_nil (by simp)
      rw [shape]
      dsimp only
      rw [← shape, droppedAbove]
      split
      · rename_i lone
        have lone : others ++ [first] = [] ++ [""] := lone
        obtain ⟨rfl, rfl⟩ := List.append_singleton_inj.mp lone
        decide
      · rename_i notLone
        have written : first ≠ "" ∨ others.reverse ≠ [] := by
          by_contra silent
          obtain ⟨rfl, rfl⟩ : first = "" ∧ others = [] := by simpa [not_or] using silent
          exact notLone rfl
        have noSlash : ∀ piece ∈ first :: others.reverse, '/' ∉ piece.toList := by
          intro piece member
          have among : piece ∈ path.pieces := by
            rw [split, front, same]
            rcases List.mem_cons.mp member with rfl | among
            · exact List.mem_cons_self
            · simp [List.mem_reverse.mp among]
          exact not_mem_of_mem_pieces among
        rw [List.reverse_concat]
        exact steps_of_pieces (pieces_joinWith (List.cons_ne_nil first _) noSlash) written

-----------------------------------------------------------------------------------------
-- Texts with an extension
-----------------------------------------------------------------------------------------

/-- What has no slash stays with the last piece. -/
theorem splitSlashes_append_of_not_mem (front : List Char) {back : List Char}
    (noSlash : '/' ∉ back)
    : ∃ init stem, splitSlashes (front ++ back) = init ++ [stem ++ back] := by
  fun_induction splitSlashes front with
  | case1 => exact ⟨[], [], by rw [List.nil_append, splitSlashes_of_not_mem noSlash]; rfl⟩
  | case2 rest ih =>
      obtain ⟨init, stem, found⟩ := ih
      exact ⟨[] :: init, stem, by rw [List.cons_append, splitSlashes, found, List.cons_append]⟩
  | case3 char rest _ empty => exact absurd empty (splitSlashes_ne_nil rest)
  | case4 char rest slash _ _ _ ih =>
      obtain ⟨init, stem, found⟩ := ih
      rw [List.cons_append, splitSlashes, found]
      · cases init with
        | nil => exact ⟨[], char :: stem, rfl⟩
        | cons head tail => exact ⟨(char :: head) :: tail, stem, rfl⟩
      · exact slash

/-- A path whose text has the extension of generated files ends in a name that has it. The extension
has no slash, so it stays with the last piece, which is no dot.
-/
theorem exists_last_name {path : FilePath} {front : String} (text : path.text = front ++ ".rs")
    : ∃ above stem, path.steps = above ++ [PathStep.name (stem ++ ".rs")] := by
  obtain ⟨init, stem, split⟩ :=
    splitSlashes_append_of_not_mem front.toList (by decide : '/' ∉ ".rs".toList)
  have pieces : path.pieces = init.map String.ofList ++ [String.ofList stem ++ ".rs"] := by
    have last : String.ofList (stem ++ ".rs".toList) = String.ofList stem ++ ".rs" := by
      apply String.toList_inj.mp
      simp
    rw [FilePath.pieces, text, String.toList_append, split, List.map_append, List.map_singleton, last]
  have spoken
      : String.ofList stem ++ ".rs" ≠ "" ∧ String.ofList stem ++ ".rs" ≠ "."
        ∧ String.ofList stem ++ ".rs" ≠ ".." := by
    have ends : (String.ofList stem ++ ".rs").toList.getLast? = some 's' := by simp
    refine ⟨?_, ?_, ?_⟩
    all_goals
      intro same
      rw [same] at ends
      exact absurd ends (by decide)
  have isName
      : innerStep? (String.ofList stem ++ ".rs") = some (.name (String.ofList stem ++ ".rs")) := by
    simp [innerStep?, spoken]
  cases init with
  | nil =>
      refine ⟨[], String.ofList stem, ?_⟩
      rw [steps_of_pieces pieces (.inl spoken.1)]
      simp [leadingStep?, spoken, isName]
  | cons first rest =>
      rw [List.map_cons, List.cons_append] at pieces
      refine ⟨(leadingStep? (String.ofList first)).toList
          ++ (rest.map String.ofList).filterMap innerStep?, String.ofList stem, ?_⟩
      rw [steps_of_pieces pieces (.inr (by simp)), List.filterMap_append, ← List.append_assoc]
      simp [isName]

/-- Such a path has a parent. -/
theorem exists_parent?_eq {path : FilePath} {above : List PathStep} {name : String}
    (steps : path.steps = above ++ [PathStep.name name])
    : ∃ parent, path.parent? = some parent := by
  have some : path.parentSteps? = some above := by simp [parentSteps?, steps]
  exact ⟨_, by rw [parent?, some, Option.map_some]⟩

/-- What is joined to a path stands at the end of the whole. -/
theorem exists_text_join (path : FilePath) (child : String)
    : ∃ front, (path.join child).text = front ++ child := by
  unfold join
  split
  · exact ⟨"", by simp⟩
  · split
    · exact ⟨_, rfl⟩
    · exact ⟨_, rfl⟩

end Wiring.FilePath
