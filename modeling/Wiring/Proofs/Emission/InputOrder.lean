import Mathlib.Data.List.Lex
import Wiring.Proofs.Emission.Agreement

/-! The component does not depend on the order in which injectables are handed over: with targets of
their own they have one order of rows, and all else follows from the rows. The files that it names as
its origins ascend, each under one spelling.
-/

namespace Wiring

-----------------------------------------------------------------------------------------
-- The order of paths
-----------------------------------------------------------------------------------------

namespace PathStep

/-- Steps are ordered by their rank, and those of one rank by their text. -/
theorem before_iff {left right : PathStep}
    : left.before right = true
      ↔ left.rank < right.rank ∨ left.rank = right.rank ∧ left.text < right.text := by
  cases left <;> cases right <;> simp [before, rank, text]

/-- A step is known by its rank and its text. -/
theorem eq_of_rank_of_text {left right : PathStep} (ranks : left.rank = right.rank)
    (texts : left.text = right.text)
    : left = right := by
  cases left <;> cases right <;> simp_all [rank, text]

instance isStrictTotalOrder
    : IsStrictTotalOrder PathStep fun left right => left.before right = true where
  irrefl step := by simp [before_iff]
  trans left middle right first second := by
    rw [before_iff] at first second ⊢
    rcases first with less | ⟨same, less⟩ <;> rcases second with more | ⟨equal, more⟩
    · exact .inl (Nat.lt_trans less more)
    · exact .inl (equal ▸ less)
    · exact .inl (same ▸ more)
    · exact .inr ⟨same.trans equal, String.lt_trans less more⟩
  trichotomous left right below above := by
    simp only [before_iff, not_or, not_and] at below above
    have ranks : left.rank = right.rank :=
      Nat.le_antisymm (Nat.not_lt.mp above.1) (Nat.not_lt.mp below.1)
    exact eq_of_rank_of_text ranks
      (String.le_antisymm (String.not_lt.mp (above.2 ranks.symm))
        (String.not_lt.mp (below.2 ranks)))

end PathStep

namespace FilePath

/-- Paths are compared like words, step by step, by induction on both. -/
theorem stepsBefore_iff {left right : List PathStep}
    : stepsBefore left right = true
      ↔ List.Lex (fun first second : PathStep => first.before second = true) left right := by
  induction left generalizing right with
  | nil => cases right <;> simp [stepsBefore]
  | cons first lefts ih =>
      cases right with
      | nil => simp [stepsBefore]
      | cons second rights => simp [stepsBefore, List.cons_lex_cons_iff, ih]

instance isStrictWeakOrder_steps
    : IsStrictWeakOrder (List PathStep)
        (List.Lex fun first second : PathStep => first.before second = true) :=
  isStrictWeakOrder_of_isOrderConnected

variable {left middle right : FilePath}

/-- The order of paths is transitive, as that of words is. -/
theorem before_trans (first : left.before middle = true) (second : middle.before right = true)
    : left.before right = true := by
  rw [before, stepsBefore_iff] at first second ⊢
  exact trans_of _ first second

/-- A path before another is not the same, for no path is before itself. -/
theorem not_same_of_before (below : left.before right = true)
    : left.same right = false := by
  rw [before, stepsBefore_iff] at below
  exact decide_eq_false fun same => irrefl_of _ right.steps (same ▸ below)

/-- Paths are the same if their steps are, however they are written. -/
theorem same_iff : left.same right = true ↔ left.steps = right.steps :=
  decide_eq_true_iff

/-- What comes behind one spelling of a path comes behind all of them. -/
theorem before_of_same (same : left.same middle = true) (below : middle.before right = true)
    : left.before right = true := by
  rw [before, same_iff.mp same]
  exact below

/-- Of two paths that are not the same, one comes before the other. -/
theorem before_of_not_before (notBelow : left.before right = false)
    (differs : left.same right = false)
    : right.before left = true := by
  rw [before, Bool.eq_false_iff, ne_eq, stepsBefore_iff] at notBelow
  rw [before, stepsBefore_iff]
  by_contra notAbove
  exact of_decide_eq_false differs
    (Std.Trichotomous.trichotomous left.steps right.steps notBelow notAbove)

end FilePath

namespace Emission

-----------------------------------------------------------------------------------------
-- The files that declare injectables
-----------------------------------------------------------------------------------------

/-- Inserting a file into ascending ones keeps all of them but another spelling of it, by induction on
the files: what stands behind a path that is not before the file's own is none of its spellings.
-/
theorem mem_insertFile {file other : FilePath} {files : List FilePath}
    (ascending : files.Pairwise fun left right => left.before right = true)
    : other ∈ insertFile file files ↔ other = file ∨ other ∈ files ∧ file.same other = false := by
  induction files with
  | nil => simp [insertFile]
  | cons first rest ih =>
      obtain ⟨above, below⟩ := List.pairwise_cons.mp ascending
      unfold insertFile
      split
      · rename_i before
        have apart : ∀ later ∈ first :: rest, file.same later = false := by
          refine List.forall_mem_cons.mpr ⟨FilePath.not_same_of_before before, ?_⟩
          exact fun later member =>
            FilePath.not_same_of_before (FilePath.before_trans before (above later member))
        rw [List.mem_cons]
        exact or_congr_right ⟨fun member => ⟨member, apart other member⟩, And.left⟩
      · split
        · rename_i same
          have apart : ∀ later ∈ rest, file.same later = false := fun later member =>
            FilePath.not_same_of_before (FilePath.before_of_same same (above later member))
          have gone : ¬ (other = first ∧ file.same other = false) := by
            rintro ⟨rfl, differs⟩
            simp [same] at differs
          rw [List.mem_cons, List.mem_cons, or_and_right, or_iff_right gone]
          exact or_congr_right ⟨fun member => ⟨member, apart other member⟩, And.left⟩
        · rename_i differs
          have stays : other = first ∧ file.same other = false ↔ other = first :=
            and_iff_left_of_imp fun same => same ▸ Bool.eq_false_iff.mpr differs
          rw [List.mem_cons, ih below, List.mem_cons, or_and_right, stays, or_left_comm]

/-- Inserting keeps the files ascending, by induction on them. -/
theorem pairwise_insertFile (file : FilePath) {files : List FilePath}
    (ascending : files.Pairwise fun left right => left.before right = true)
    : (insertFile file files).Pairwise fun left right => left.before right = true := by
  induction files with
  | nil => exact List.pairwise_singleton _ file
  | cons first rest ih =>
      obtain ⟨above, below⟩ := List.pairwise_cons.mp ascending
      unfold insertFile
      split
      · rename_i before
        refine List.pairwise_cons.mpr ⟨?_, ascending⟩
        exact List.forall_mem_cons.mpr
          ⟨before, fun later member => FilePath.before_trans before (above later member)⟩
      · split
        · rename_i same
          exact List.pairwise_cons.mpr
            ⟨fun later member => FilePath.before_of_same same (above later member), below⟩
        · rename_i notBefore differs
          refine List.pairwise_cons.mpr ⟨fun later member => ?_, ih below⟩
          rcases (mem_insertFile below).mp member with rfl | ⟨member, -⟩
          · exact FilePath.before_of_not_before (Bool.eq_false_iff.mpr notBefore)
              (Bool.eq_false_iff.mpr differs)
          · exact above later member

/-- One more injectable has its file inserted. -/
theorem declaringFiles_append_singleton (injectables : List Injectable) (last : Injectable)
    : declaringFiles (injectables ++ [last])
      = insertFile last.location.file (declaringFiles injectables) := by
  rw [declaringFiles, List.foldl_append]
  rfl

/-- The files of injectables ascend, by induction from the last injectable. -/
theorem pairwise_declaringFiles (injectables : List Injectable)
    : (declaringFiles injectables).Pairwise fun left right => left.before right = true := by
  induction injectables using List.reverseRecOn with
  | nil => exact .nil
  | append_singleton injectables last ih =>
      rw [declaringFiles_append_singleton]
      exact pairwise_insertFile last.location.file ih

/-- The file of an injectable, which is not spelled in another way by any later one. -/
def IsLastSpelling (injectables : List Injectable) (file : FilePath) : Prop :=
  ∃ front injectable back,
    injectables = front ++ injectable :: back
    ∧ injectable.location.file = file
    ∧ ∀ later ∈ back, later.location.file.same file = false

/-- Exactly the last spellings are kept, by induction from the last injectable. -/
theorem mem_declaringFiles {injectables : List Injectable} {file : FilePath}
    : file ∈ declaringFiles injectables ↔ IsLastSpelling injectables file := by
  induction injectables using List.reverseRecOn with
  | nil => simp [declaringFiles, IsLastSpelling]
  | append_singleton injectables last ih =>
      rw [declaringFiles_append_singleton, mem_insertFile (pairwise_declaringFiles injectables), ih]
      constructor
      · rintro (rfl | ⟨⟨front, injectable, back, rfl, own, differ⟩, apart⟩)
        · exact ⟨injectables, last, [], rfl, rfl, by simp⟩
        · refine ⟨front, injectable, back ++ [last], by simp, own, ?_⟩
          exact List.forall_mem_append.mpr ⟨differ, List.forall_mem_singleton.mpr apart⟩
      · rintro ⟨front, injectable, back, split, own, differ⟩
        rcases List.eq_nil_or_concat back with rfl | ⟨others, final, rfl⟩
        · obtain ⟨-, same⟩ := List.append_inj' split rfl
          obtain rfl := List.singleton_inj.mp same
          exact .inl own.symm
        · rw [List.concat_eq_append] at split differ
          rw [← List.cons_append, ← List.append_assoc] at split
          obtain ⟨rfl, same⟩ := List.append_inj' split rfl
          obtain rfl := List.singleton_inj.mp same
          obtain ⟨differ, apart⟩ := List.forall_mem_append.mp differ
          exact .inr ⟨⟨front, injectable, others, rfl, own, differ⟩, apart last (by simp)⟩

example
    : declaringFiles
          [{ (default : Injectable) with location := ⟨⟨"src//a.rs"⟩, 1⟩ },
            { (default : Injectable) with location := ⟨⟨"src/b.rs"⟩, 1⟩ },
            { (default : Injectable) with location := ⟨⟨"src/a.rs"⟩, 9⟩ }]
      = [⟨"src/a.rs"⟩, ⟨"src/b.rs"⟩] := by
  decide

/-- Under one spelling or another the file of each injectable is there, by induction from the last
injectable: what is inserted takes the place of its other spellings only.
-/
theorem exists_same_declaringFiles {injectables : List Injectable} {injectable : Injectable}
    (member : injectable ∈ injectables)
    : ∃ file ∈ declaringFiles injectables, file.same injectable.location.file = true := by
  induction injectables using List.reverseRecOn with
  | nil => contradiction
  | append_singleton injectables last ih =>
      rw [declaringFiles_append_singleton]
      have inserted (file : FilePath)
          : file ∈ insertFile last.location.file (declaringFiles injectables)
            ↔ file = last.location.file
              ∨ file ∈ declaringFiles injectables ∧ last.location.file.same file = false :=
        mem_insertFile (pairwise_declaringFiles injectables)
      rcases List.mem_append.mp member with among | here
      · obtain ⟨file, kept, same⟩ := ih among
        cases gives : last.location.file.same file with
        | true =>
            refine ⟨last.location.file, (inserted _).mpr (.inl rfl), ?_⟩
            exact FilePath.same_iff.mpr
              ((FilePath.same_iff.mp gives).trans (FilePath.same_iff.mp same))
        | false => exact ⟨file, (inserted file).mpr (.inr ⟨kept, gives⟩), same⟩
      · rw [List.mem_singleton.mp here]
        exact ⟨last.location.file, (inserted _).mpr (.inl rfl), FilePath.same_iff.mpr rfl⟩

/-- Whether an artifact depends on the files of the injectables as a whole. They are listed in
ascending order, and each of them once, however it is spelled: as in the last row that names it.
-/
structure Aggregates (artifact : Artifact) (injectables : List Injectable) : Prop where
  aggregating : artifact.origins.aggregating = true
  ascending
    : artifact.origins.sources.Pairwise fun left right =>
        left.before right = true ∧ left.same right = false
  declaring
    : ∀ file ∈ artifact.origins.sources,
        ∃ injectable ∈ injectables, injectable.location.file = file
  complete
    : ∀ injectable ∈ injectables,
        ∃ file ∈ artifact.origins.sources, file.same injectable.location.file = true
  spelled
    : ∀ file, file ∈ artifact.origins.sources ↔ IsLastSpelling (inRowOrder injectables) file

-----------------------------------------------------------------------------------------
-- Components
-----------------------------------------------------------------------------------------

/-- Injectables with targets of their own have one order of rows. -/
theorem inRowOrder_of_perm {left right : List Injectable} (perm : left.Perm right)
    (distinct : (left.map Injectable.target).Nodup)
    : inRowOrder left = inRowOrder right := by
  have others : (right.map Injectable.target).Nodup :=
    (perm.map Injectable.target).nodup_iff.mp distinct
  have rows : (inRowOrder left).Perm (inRowOrder right) :=
    ((inRowOrder_perm left).trans perm).trans (inRowOrder_perm right).symm
  refine List.Perm.eq_of_pairwise (fun first second _ _ below above => ?_)
    (ascending_inRowOrder distinct) (ascending_inRowOrder others) rows
  exact absurd above (asymm_of (· < ·) below)

/-- A component aggregates the files of its injectables. -/
theorem aggregates_of_component {settings : Settings} {injectables : List Injectable}
    {artifact : Artifact} (made : component settings injectables = .ok artifact)
    : Aggregates artifact injectables := by
  have ordered := inRowOrder_perm injectables
  obtain ⟨_, _, _, _, _, _, rfl⟩ := component_eq_ok made
  refine ⟨rfl, ?_, ?_, ?_, fun file => mem_declaringFiles⟩
  · exact (pairwise_declaringFiles _).imp fun below => ⟨below, FilePath.not_same_of_before below⟩
  · intro file member
    obtain ⟨front, injectable, back, split, own, _⟩ := mem_declaringFiles.mp member
    exact ⟨injectable, ordered.mem_iff.mp (split ▸ List.mem_append_cons_self), own⟩
  · exact fun injectable member => exists_same_declaringFiles (ordered.mem_iff.mpr member)

/-- Injectables with targets of their own make one component, in whatever order they are handed over:
the artifacts are the same, and so are the files that they aggregate. A name that is no identifier
keeps both of them from being made, and nothing else does. Rows come in the order of their targets, so
both are made of the same rows; and the rows of proper names are all there.
-/
theorem component_of_perm {settings : Settings} {left right : List Injectable}
    {runtime name : String} (perm : left.Perm right)
    (distinct : (left.map Injectable.target).Nodup)
    (path : Source.readPath? settings.runtimePath = some runtime)
    (named : Source.readIdentifier? settings.componentName = some name)
    : (∃ artifact,
        component settings left = .ok artifact
        ∧ component settings right = .ok artifact
        ∧ Aggregates artifact left)
      ∨ component settings left = .error .notAnIdentifier
        ∧ component settings right = .error .notAnIdentifier
        ∧ ∃ injectable ∈ left, ¬ (AllSpelled injectable ∧ IsBare injectable.target.name) := by
  have same : component settings left = component settings right := by
    simp only [component, inRowOrder_of_perm perm distinct]
  rw [← same]
  cases made : component settings left with
  | ok artifact => exact .inl ⟨artifact, rfl, rfl, aggregates_of_component made⟩
  | error failure =>
      have cause : failure = .notAnIdentifier := by
        simp only [component, path, named] at made
        split at made
        · exact (Except.error.inj made).symm
        · contradiction
      refine .inr ⟨by rw [cause], by rw [cause], ?_⟩
      by_contra proper
      push Not at proper
      obtain ⟨artifact, found, _⟩ :=
        exists_component_spells (fun injectable member => (proper injectable member).1)
          (fun injectable member => (proper injectable member).2) path named
      rw [made] at found
      contradiction

/-- A repository and its client make the same component the other way round. Their names are proper, so
the component is made.
-/
theorem component_of_perm_reversed
    : repositoryAndClient.Perm repositoryAndClient.reverse
      ∧ (repositoryAndClient.map Injectable.target).Nodup
      ∧ Source.readPath? ({} : Settings).runtimePath = some ":: tinydi"
      ∧ Source.readIdentifier? ({} : Settings).componentName = some "TinyDiComponent"
      ∧ ∃ artifact,
          component {} repositoryAndClient = .ok artifact
          ∧ component {} repositoryAndClient.reverse = .ok artifact
          ∧ Aggregates artifact repositoryAndClient := by
  have perm : repositoryAndClient.Perm repositoryAndClient.reverse :=
    (List.reverse_perm _).symm
  have distinct : (repositoryAndClient.map Injectable.target).Nodup := by decide
  refine ⟨perm, distinct, Settings.readPath?_default, Settings.readIdentifier?_default, ?_⟩
  refine (component_of_perm perm distinct Settings.readPath?_default
    Settings.readIdentifier?_default).resolve_right ?_
  rintro ⟨_, _, injectable, member, improper⟩
  exact improper ⟨allSpelled_repositoryAndClient injectable member,
    isBare_repositoryAndClient injectable member⟩

end Emission

end Wiring
