import Mathlib.Data.List.Basic
import Wiring.FilePath

/-! The steps of joined paths. A relative path adds its steps to those of the path it is joined to,
however the two are spelled; a plain segment adds its own name.
-/

namespace Wiring.FilePath

-----------------------------------------------------------------------------------------
-- Pieces
-----------------------------------------------------------------------------------------

/-- Splitting leaves at least one piece. -/
theorem splitSlashes_ne_nil (chars : List Char)
    : splitSlashes chars ≠ [] := by
  fun_cases splitSlashes chars <;> simp_all

/-- A slash splits where it stands. -/
theorem splitSlashes_append (front back : List Char)
    : splitSlashes (front ++ '/' :: back) = splitSlashes front ++ splitSlashes back := by
  fun_induction splitSlashes front with
  | case1 => rfl
  | case2 rest ih => simp [splitSlashes, ih]
  | case3 char rest _ empty ih => exact absurd empty (splitSlashes_ne_nil rest)
  | case4 char rest noSlash head tail found ih =>
      rw [found] at ih
      simp only [List.cons_append] at ih ⊢
      rw [splitSlashes, ih]
      exact noSlash

/-- Without slashes there is one piece. -/
theorem splitSlashes_of_not_mem {chars : List Char} (noSlash : '/' ∉ chars)
    : splitSlashes chars = [chars] := by
  induction chars with
  | nil => rfl
  | cons char rest ih =>
      rw [List.mem_cons, not_or] at noSlash
      rw [splitSlashes, ih noSlash.2]
      exact Ne.symm noSlash.1

/-- Only the empty text is one empty piece. -/
theorem eq_nil_of_splitSlashes {chars : List Char} (silent : splitSlashes chars = [[]])
    : chars = [] := by
  cases chars with
  | nil => rfl
  | cons char rest =>
      obtain ⟨head, tail, found⟩ := List.exists_cons_of_ne_nil (splitSlashes_ne_nil rest)
      by_cases slash : char = '/'
      · subst slash
        simp [splitSlashes, found] at silent
      · rw [splitSlashes, found] at silent
        · simp at silent
        · exact slash

-----------------------------------------------------------------------------------------
-- Steps
-----------------------------------------------------------------------------------------

/-- The step of a first piece, behind which a slash or something else follows. -/
def leadingStep? (piece : String) : Option PathStep :=
  if piece = "" then some .root else if piece = "." then some .here else innerStep? piece

/-- The steps of a path are those of its pieces, of which the first one counts even where it is a dot,
by the cases in which steps are read off pieces.
-/
theorem steps_of_pieces {path : FilePath} {first : String} {rest : List String}
    (pieces : path.pieces = first :: rest) (written : first ≠ "" ∨ rest ≠ [])
    : path.steps = (leadingStep? first).toList ++ rest.filterMap innerStep? := by
  unfold steps
  rw [pieces]
  split
  · simp_all
  · simp_all
  · rename_i same
    obtain ⟨rfl, rfl⟩ := List.cons.inj same
    simp [leadingStep?]
  · rename_i same
    obtain ⟨rfl, rfl⟩ := List.cons.inj same
    simp [leadingStep?]
  · rename_i noRoot noDot same
    obtain ⟨rfl, rfl⟩ := List.cons.inj same
    have root : first ≠ "" := noRoot
    have dot : first ≠ "." := noDot
    simp only [leadingStep?, root, dot, if_false, List.filterMap_cons]
    cases innerStep? first <;> rfl

/-- A slash between two texts splits them. -/
theorem pieces_append (front back : String)
    : (FilePath.mk (front ++ "/" ++ back)).pieces
      = (FilePath.mk front).pieces ++ (FilePath.mk back).pieces := by
  have chars : (front ++ "/" ++ back).toList = front.toList ++ '/' :: back.toList := by simp
  simp only [pieces, chars, splitSlashes_append, List.map_append]

/-- A path has a first piece. -/
theorem exists_pieces_eq_cons (path : FilePath)
    : ∃ first rest, path.pieces = first :: rest := by
  obtain ⟨first, rest, split⟩ := List.exists_cons_of_ne_nil (splitSlashes_ne_nil path.text.toList)
  exact ⟨String.ofList first, rest.map String.ofList, by simp [pieces, split]⟩

/-- The path is relative and does not begin with a dot. -/
def IsPlain (path : FilePath) : Prop :=
  ∀ step, path.steps.head? = some step → step ≠ .root ∧ step ≠ .here

/-- Steps by names alone make a path plain. -/
theorem isPlain_of_steps {path : FilePath} {names : List String}
    (steps : path.steps = names.map .name)
    : path.IsPlain := by
  intro step first
  rw [steps] at first
  cases names with
  | nil => simp at first
  | cons name rest =>
      obtain rfl : PathStep.name name = step := by simpa using first
      simp

/-- The pieces of a plain path are all inner ones. -/
theorem IsPlain.steps_eq {child : FilePath} (plain : child.IsPlain)
    : child.steps = child.pieces.filterMap innerStep? := by
  obtain ⟨first, rest, split⟩ := child.exists_pieces_eq_cons
  by_cases written : first ≠ "" ∨ rest ≠ []
  · have steps := steps_of_pieces split written
    have root : first ≠ "" := by
      rintro rfl
      exact (plain .root (by simp [steps, leadingStep?])).1 rfl
    have dot : first ≠ "." := by
      rintro rfl
      exact (plain .here (by simp [steps, leadingStep?])).2 rfl
    rw [steps, split]
    simp only [leadingStep?, root, dot, if_false, List.filterMap_cons]
    cases innerStep? first <;> rfl
  · obtain ⟨rfl, rfl⟩ : first = "" ∧ rest = [] := by simpa [not_or] using written
    simp [steps, split, innerStep?]

/-- A plain path does not start at the root, where its first piece would be empty. -/
theorem IsPlain.not_isAbsolute {child : FilePath} (plain : child.IsPlain)
    : child.isAbsolute = false := by
  by_contra absolute
  have leads : child.text.toList.head? = some '/' := by simpa [isAbsolute] using absolute
  obtain ⟨rest, chars⟩ := List.head?_eq_some_iff.mp leads
  have split : child.pieces = "" :: (splitSlashes rest).map String.ofList := by
    simp [pieces, chars, splitSlashes]
  have steps := steps_of_pieces split (.inr (by simp [splitSlashes_ne_nil]))
  exact (plain .root (by simp [steps, leadingStep?])).1 rfl

/-- What plain paths behind a slash add is the same for all fronts: their own steps. The pieces of the
front come first, and a plain path adds inner pieces only.
-/
theorem exists_leading_steps (front : String)
    : ∃ leading,
        (∀ child : FilePath,
          child.IsPlain
          → (FilePath.mk (front ++ "/" ++ child.text)).steps = leading ++ child.steps)
        ∧ (front ≠ "" → (FilePath.mk front).steps = leading) := by
  obtain ⟨first, rest, split⟩ := (FilePath.mk front).exists_pieces_eq_cons
  refine ⟨(leadingStep? first).toList ++ rest.filterMap innerStep?, ?_, ?_⟩
  · intro child plain
    obtain ⟨head, tail, inner⟩ := child.exists_pieces_eq_cons
    have pieces := pieces_append front child.text
    rw [split, List.cons_append] at pieces
    rw [steps_of_pieces pieces (.inr (by simp [inner])), List.filterMap_append, plain.steps_eq,
      List.append_assoc]
  · intro written
    refine steps_of_pieces split ?_
    by_contra silent
    obtain ⟨rfl, rfl⟩ : first = "" ∧ rest = [] := by simpa [not_or] using silent
    have chars : splitSlashes front.toList = [[]] := by simpa [pieces] using split
    exact written (String.toList_inj.mp (by simpa using eq_nil_of_splitSlashes chars))

/-- A plain path adds its steps to those of the path that it is joined to. A path that ends in a slash
is its front, a slash and the empty path.
-/
theorem steps_join (path : FilePath) {child : FilePath} (plain : child.IsPlain)
    : (path.join child.text).steps = path.steps ++ child.steps := by
  have relative : (FilePath.mk child.text).isAbsolute = false := plain.not_isAbsolute
  by_cases empty : path.text = ""
  · have silent : path.steps = [] := by simp [steps, pieces, empty, splitSlashes]
    simp [join, relative, empty, silent]
  · by_cases trailing : path.text.toList.getLast? = some '/'
    · obtain ⟨front, split⟩ := List.getLast?_eq_some_iff.mp trailing
      have text : String.ofList front ++ "/" = path.text := by
        apply String.toList_inj.mp
        simp [split]
      obtain ⟨leading, append, _⟩ := exists_leading_steps (String.ofList front)
      -- The path itself is its front, a slash and the empty path.
      have nothing : (FilePath.mk "").IsPlain := by simp [IsPlain, steps, pieces, splitSlashes]
      have whole := append ⟨""⟩ nothing
      have joined := append child plain
      rw [text] at whole joined
      have silent : (FilePath.mk "").steps = [] := by simp [steps, pieces, splitSlashes]
      rw [String.append_empty, silent, List.append_nil] at whole
      simpa [join, relative, trailing, ← whole] using joined
    · obtain ⟨leading, append, whole⟩ := exists_leading_steps path.text
      have joined := append child plain
      rw [← whole empty] at joined
      simpa [join, relative, empty, trailing] using joined

-----------------------------------------------------------------------------------------
-- Segments
-----------------------------------------------------------------------------------------

/-- The text is one name in a path. -/
structure IsSegment (text : String) : Prop where
  noSlash : '/' ∉ text.toList
  written : text ≠ ""
  noDot : text ≠ "."
  noDots : text ≠ ".."

/-- A segment is one step down. -/
theorem IsSegment.steps_eq {text : String} (segment : IsSegment text)
    : (FilePath.mk text).steps = [.name text] := by
  obtain ⟨noSlash, written, noDot, noDots⟩ := segment
  have split : (FilePath.mk text).pieces = [text] := by
    simp [pieces, splitSlashes_of_not_mem noSlash]
  rw [steps_of_pieces split (.inl written)]
  simp [leadingStep?, innerStep?, written, noDot, noDots]

/-- So it is plain. -/
theorem IsSegment.isPlain {text : String} (segment : IsSegment text)
    : (FilePath.mk text).IsPlain :=
  isPlain_of_steps (show _ = [text].map PathStep.name from segment.steps_eq)

/-- Joining a segment goes one step further down. -/
theorem steps_join_segment (path : FilePath) {text : String} (segment : IsSegment text)
    : (path.join text).steps = path.steps ++ [PathStep.name text] := by
  rw [← segment.steps_eq, ← steps_join path segment.isPlain]

/-- The steps of segments in order are their names. -/
theorem steps_ofSegments {segments : List String} (all : ∀ segment ∈ segments, IsSegment segment)
    : (ofSegments segments).steps = segments.map .name := by
  have below (path : FilePath)
      : (segments.foldl join path).steps = path.steps ++ segments.map .name := by
    induction segments generalizing path with
    | nil => simp
    | cons first rest ih =>
        have here := steps_join_segment path (all first (by simp))
        have others := ih (fun segment member => all segment (List.mem_cons_of_mem _ member))
        rw [List.foldl_cons, others, here]
        simp
  have silent : (FilePath.mk "").steps = [] := by simp [steps, pieces, splitSlashes]
  rw [ofSegments, below, silent, List.nil_append]

end Wiring.FilePath
