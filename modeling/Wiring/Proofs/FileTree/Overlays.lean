import Wiring.Proofs.FilePath.Parents
import Wiring.Proofs.FileTree.Operations

/-! Trees that lie over one another. A tree to which more has been done has at least the directories
of the other one, and the same files except for those that are left over. What succeeds on it succeeds
on the other one as well, and leaves the two trees in the same relation.
-/

namespace Wiring.FileTree

variable {plain full plainAfter fullAfter : FileTree}
  {leftover others : List String → FileContent → Prop} {names base : List String}

/-- The second tree has all directories of the first one, and the same files except at the places of
those that are left over.
-/
structure Overlaid (leftover : List String → FileContent → Prop) (plain full : FileTree) : Prop where
  directories : plain.KeepsDirectories full
  present : ∀ names content, leftover names content → full.node? names = some (.file content)
  alike
    : ∀ names,
        (∀ content, ¬ leftover names content)
        → ∀ content,
          full.node? names = some (.file content) ↔ plain.node? names = some (.file content)

/-- Nothing lies over a tree but the tree. -/
theorem Overlaid.refl (tree : FileTree) : Overlaid (fun _ _ => False) tree tree :=
  ⟨.refl tree, fun _ _ => False.elim, fun _ _ _ => Iff.rfl⟩

/-- What lies over a tree may be said otherwise. -/
theorem Overlaid.congr (overlaid : Overlaid leftover plain full)
    (same : ∀ names content, others names content ↔ leftover names content)
    : Overlaid others plain full := by
  obtain rfl : others = leftover := by
    funext names content
    exact propext (same names content)
  exact overlaid

/-- What the files of the second tree are. -/
theorem Overlaid.file_iff (overlaid : Overlaid leftover plain full) {content : FileContent}
    : full.node? names = some (.file content)
      ↔ leftover names content
        ∨ (∀ other, ¬ leftover names other) ∧ plain.node? names = some (.file content) := by
  constructor
  · intro held
    by_cases left : ∃ other, leftover names other
    · obtain ⟨other, left⟩ := left
      obtain rfl : other = content := by simpa [overlaid.present names other left] using held
      exact .inl left
    · have none := not_exists.mp left
      exact .inr ⟨none, (overlaid.alike names none content).mp held⟩
  · rintro (left | ⟨none, held⟩)
    · exact overlaid.present names content left
    · exact (overlaid.alike names none content).mpr held

/-- Where one tree has a file, there is one in the other, if with another content. -/
theorem Overlaid.exists_file (overlaid : Overlaid leftover plain full) {content : FileContent}
    (present : plain.node? names = some (.file content))
    : ∃ other, full.node? names = some (.file other) := by
  by_cases left : ∃ other, leftover names other
  · obtain ⟨other, left⟩ := left
    exact ⟨other, overlaid.present names other left⟩
  · exact ⟨content, (overlaid.alike names (not_exists.mp left) content).mpr present⟩

/-- Where the full tree has nothing, the plain one has nothing. -/
theorem Overlaid.vacant (overlaid : Overlaid leftover plain full) (vacant : full.node? names = none)
    : plain.node? names = none := by
  cases held : plain.node? names with
  | none => rfl
  | some node =>
      cases node with
      | directory => simp [overlaid.directories names held] at vacant
      | file content =>
          obtain ⟨other, present⟩ := overlaid.exists_file held
          simp [present] at vacant

/-- More directories above make no difference. -/
theorem Overlaid.grown (overlaid : Overlaid leftover plain full) (more : full.AddsDirectories fullAfter)
    : Overlaid leftover plain fullAfter where
  directories := overlaid.directories.trans more.kept.keepsDirectories
  present names content left := more.kept _ _ (overlaid.present names content left)
  alike names none content := by
    rw [← overlaid.alike names none content]
    exact ⟨more.files names content, more.kept names _⟩

/-- A file that is written above is left over, instead of what was left over there before. -/
theorem Overlaid.deposit {content : FileContent} (overlaid : Overlaid leftover plain full)
    (alters : full.Alters fullAfter names (some (.file content)))
    : Overlaid
        (fun others found => if others = names then found = content else leftover others found)
        plain fullAfter where
  directories := overlaid.directories.trans alters.keepsDirectories
  present others found left := by
    split at left
    · rename_i same
      rw [same, alters.here, left]
    · rename_i differs
      rw [alters.elsewhere others differs, overlaid.present others found left]
  alike others none found := by
    by_cases same : others = names
    · exact (none content (by rw [if_pos same])).elim
    · rw [alters.elsewhere others same]
      exact overlaid.alike others (by simpa [same] using none) found

-----------------------------------------------------------------------------------------
-- Directories
-----------------------------------------------------------------------------------------

/-- A directory that was missing may be added. -/
theorem Overlaid.enter (overlaid : Overlaid leftover plain full) (below : names ≠ [])
    (entered : full.node? names = some .directory)
    : Overlaid leftover (plain.set names .directory) full := by
  refine ⟨fun others present => ?_, overlaid.present, fun others none content => ?_⟩
  · rw [node?_set below] at present
    split at present
    · rename_i same
      rw [same, entered]
    · exact overlaid.directories others present
  · rw [node?_set below]
    split
    · rename_i same
      simp [same, entered]
    · exact overlaid.alike others none content

/-- So may one that is in neither of the trees. Nothing was left over there, as something that is left
over is present in the full tree.
-/
theorem Overlaid.enterBoth (overlaid : Overlaid leftover plain full) (below : names ≠ [])
    (vacant : full.node? names = none)
    : Overlaid leftover (plain.set names .directory) (full.set names .directory) := by
  refine ⟨fun others present => ?_, fun others content left => ?_, fun others none content => ?_⟩
  · rw [node?_set below] at present ⊢
    split
    · rfl
    · rename_i differs
      rw [if_neg differs] at present
      exact overlaid.directories others present
  · have present := overlaid.present others content left
    rw [node?_set below, if_neg, present]
    rintro rfl
    simp [vacant] at present
  · rw [node?_set below, node?_set below]
    split
    · exact Iff.rfl
    · exact overlaid.alike others none content

/-- Directories that can be made in one tree can be made in the other, by induction on the steps. -/
theorem Overlaid.makeDirectories {steps : List PathStep} (overlaid : Overlaid leftover plain full)
    (succeeds : (full.makeDirectories base steps).2 = true)
    : (plain.makeDirectories base steps).2 = true
      ∧ Overlaid leftover (plain.makeDirectories base steps).1
          (full.makeDirectories base steps).1 := by
  induction steps generalizing plain full base with
  | nil => exact ⟨rfl, overlaid⟩
  | cons step rest ih =>
      cases step with
      | root | here | up => exact ih overlaid succeeds
      | name name =>
          by_cases usable : isUsableName name = true
          · unfold FileTree.makeDirectories at succeeds ⊢
            simp only [usable, Bool.not_true, Bool.false_eq_true, if_false] at succeeds ⊢
            have below : base ++ [name] ≠ [] := by simp
            cases found : full.node? (base ++ [name]) with
            | none =>
                simp only [found] at succeeds
                simp only [overlaid.vacant found]
                exact ih (overlaid.enterBoth below found) succeeds
            | some node =>
                cases node with
                | file content => simp [found] at succeeds
                | directory =>
                    simp only [found] at succeeds
                    cases held : plain.node? (base ++ [name]) with
                    | none => exact ih (overlaid.enter below found) succeeds
                    | some node =>
                        cases node with
                        | directory => exact ih overlaid succeeds
                        | file content =>
                            obtain ⟨other, present⟩ := overlaid.exists_file held
                            simp [present] at found
          · simp [FileTree.makeDirectories, usable] at succeeds

/-- A directory that is made below leftovers is made without them, and the leftovers still lie over it:
the same parents are missing in both trees, for leftovers are files.
-/
theorem Overlaid.ensureDirectory {path : FilePath} (overlaid : Overlaid leftover plain full)
    (ensured : (full.ensureDirectory path).2 = true)
    : (plain.ensureDirectory path).2 = true
      ∧ Overlaid leftover (plain.ensureDirectory path).1 (full.ensureDirectory path).1 := by
  unfold FileTree.ensureDirectory at ensured ⊢
  split
  · exact ⟨rfl, overlaid⟩
  · rename_i written
    split
    · rename_i unusable
      simp [written, unusable] at ensured
    · rename_i usable
      simp only [written, usable, if_false] at ensured
      exact overlaid.makeDirectories ensured

-----------------------------------------------------------------------------------------
-- Files
-----------------------------------------------------------------------------------------

/-- What is done to one file in both trees makes up for what was left over there. Elsewhere both trees
are what they were.
-/
theorem Overlaid.alters {node : Option FileNode} (overlaid : Overlaid leftover plain full)
    (plainAlters : plain.Alters plainAfter names node) (fullAlters : full.Alters fullAfter names node)
    : Overlaid (fun others content => others ≠ names ∧ leftover others content)
        plainAfter fullAfter := by
  refine ⟨?_, ?_, ?_⟩
  · intro others present
    have differs : others ≠ names := by
      rintro rfl
      exact plainAlters.noDirectory (plainAlters.here.symm.trans present)
    rw [plainAlters.elsewhere others differs] at present
    rw [fullAlters.elsewhere others differs, overlaid.directories others present]
  · rintro others content ⟨differs, left⟩
    rw [fullAlters.elsewhere others differs, overlaid.present others content left]
  · intro others none content
    by_cases same : others = names
    · rw [same, plainAlters.here, fullAlters.here]
    · rw [plainAlters.elsewhere others same, fullAlters.elsewhere others same]
      exact overlaid.alike others (fun other left => none other ⟨same, left⟩) content

/-- A name leads on from a directory. -/
theorem Leads.name_of_follow {tree : FileTree} {top : List String} {front : List PathStep}
    {name : String} (reaches : tree.follow top front = .node base .directory)
    (usable : isUsableName name = true)
    : tree.Leads top (front ++ [.name name]) (base ++ [name]) := by
  replace reaches := enters_of_follow reaches
  induction reaches with
  | done => exact .last usable
  | root _ ih => exact .root ih
  | here _ ih => exact .here ih
  | up _ ih => exact .up ih
  | through usableFirst entered _ ih => exact .through usableFirst entered ih

/-- The last name of a path is the last one at its place. -/
theorem Leads.getLast?_eq {tree : FileTree} {steps front : List PathStep} {name : String}
    (leads : tree.Leads base steps names) (ends : steps = front ++ [PathStep.name name])
    : names.getLast? = some name := by
  induction leads generalizing front with
  | root after ih | here after ih | up after ih | through _ _ after ih =>
      cases front with
      | nil =>
          obtain ⟨-, rfl⟩ := List.cons.inj ends
          exact absurd after (by rintro ⟨⟩)
      | cons first rest => exact ih (List.cons.inj ends).2
  | @last base last usable =>
      cases front with
      | nil =>
          obtain ⟨same, -⟩ := List.cons.inj ends
          obtain rfl := PathStep.name.inj same
          simp
      | cons first rest => simp at ends

/-- A path that leads to a file in one tree leads there in the other, if its parent is there. The
parent is a directory in both trees, and the last name stays usable.
-/
theorem Overlaid.addresses {path parent : FilePath} {above : List PathStep} {name : String}
    (overlaid : Overlaid leftover plain full) (addresses : full.Addresses path names)
    (ends : path.steps = above ++ [.name name]) (hasParent : path.parent? = some parent)
    (ensured : (plain.ensureDirectory parent).1 = plain)
    (succeeded : (plain.ensureDirectory parent).2 = true)
    : plain.Addresses path names := by
  obtain ⟨base, reaches⟩ := follow_ensureDirectory succeeded
  have parentSteps : parent.steps = above := by
    rw [FilePath.steps_parent? hasParent, ends, List.dropLast_concat]
  rw [ensured, parentSteps] at reaches
  have leads := addresses.leads
  rw [ends] at leads
  cases leads.of_append (follow_directory_mono reaches overlaid.directories) (by simp) with
  | through _ _ after => cases after
  | last usable =>
      refine { addresses with leads := ?_ }
      rw [ends]
      exact .name_of_follow reaches usable

end Wiring.FileTree
