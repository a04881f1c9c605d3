import Wiring.Proofs.FilePath.Joining
import Wiring.Proofs.FileTree.Places

/-! What operations on a tree do to it: files are written and removed at one place, directories are
only ever added, and reading a path tells what is at its place.
-/

namespace Wiring.FileTree

variable {tree other : FileTree} {path : FilePath} {names : List String}

-----------------------------------------------------------------------------------------
-- Paths to files
-----------------------------------------------------------------------------------------

/-- The path may stand for a file, and leads to the place at `names`. -/
structure Addresses (tree : FileTree) (path : FilePath) (names : List String) : Prop where
  written : path.text ≠ ""
  usable : isUsablePath path = true
  forFile : path.asksDirectory = false
  leads : tree.Leads [] path.steps names

/-- An address stays where directories do, since it is reached through them. -/
theorem Addresses.mono (addresses : tree.Addresses path names)
    (keeps : tree.KeepsDirectories other)
    : other.Addresses path names :=
  { addresses with leads := addresses.leads.mono keeps }

/-- One path leads to one place. -/
theorem Addresses.unique {others : List String} (addresses : tree.Addresses path names)
    (again : tree.Addresses path others)
    : names = others :=
  addresses.leads.unique again.leads

/-- What is joined to the path of a directory by names alone leads to a place below the directory. -/
theorem Leads.eq_append_of_join {root child : FilePath} {base segments : List String}
    (leads : tree.Leads [] (root.join child.text).steps names)
    (reaches : tree.follow [] root.steps = .node base .directory)
    (steps : child.steps = segments.map .name) (some : segments ≠ [])
    : names = base ++ segments := by
  rw [FilePath.steps_join root (FilePath.isPlain_of_steps steps), steps] at leads
  exact (leads.of_append reaches (by simpa using some)).eq_append

/-- The place of a path holds the node that is there. -/
theorem Addresses.place_eq (addresses : tree.Addresses path names)
    : tree.place path = .holding names (tree.node? names) := by
  obtain ⟨written, usable, forFile, leads⟩ := addresses
  simp only [place, written, usable, leads.follow_eq, Bool.not_true, if_false]
  cases tree.node? names with
  | none => rfl
  | some node => cases node <;> simp [Place.holding, forFile]

/-- What is found at a path is found by following its steps. -/
theorem follow_of_place {node : Option FileNode} (found : tree.place path = .holding names node)
    : path.text ≠ ""
      ∧ isUsablePath path = true
      ∧ tree.follow [] path.steps = .holding names node := by
  unfold place at found
  split at found
  · cases node <;> simp [Place.holding] at found
  · rename_i written
    split at found
    · cases node <;> simp [Place.holding] at found
    · rename_i usable
      refine ⟨written, by simpa using usable, ?_⟩
      split at found
      · rename_i passed
        split at found
        · cases node <;> simp [Place.holding] at found
        · rw [passed, found]
      · exact found

/-- A path to a file, or to nothing at all, leads to the place where that is found. -/
theorem leads_of_place {node : Option FileNode} (found : tree.place path = .holding names node)
    (noDirectory : node ≠ some .directory)
    : tree.Leads [] path.steps names :=
  leads_of_follow (follow_of_place found).2.2 noDirectory

/-- The place of a path is its address, unless a directory is held there or is asked for. -/
theorem addresses_of_place {node : Option FileNode} (found : tree.place path = .holding names node)
    (noDirectory : node ≠ some .directory) (forFile : node = none → path.asksDirectory = false)
    : tree.Addresses path names ∧ tree.node? names = node := by
  obtain ⟨written, usable, followed⟩ := follow_of_place found
  have leads := leads_of_follow followed noDirectory
  have addresses : tree.Addresses path names := by
    refine ⟨written, usable, ?_, leads⟩
    rcases node with _ | _ | content
    · exact forFile rfl
    · exact absurd rfl noDirectory
    · cases asks : path.asksDirectory with
      | false => rfl
      | true => simp [place, written, usable, followed, Place.holding, asks] at found
  refine ⟨addresses, ?_⟩
  have same := leads.follow_eq.symm.trans followed
  cases node <;> cases here : tree.node? names <;> simp_all [Place.holding]

/-- Reading finds the text of the file that a path leads to. -/
theorem readText_eq_ok_iff {text : String}
    : tree.readText path = .ok text
      ↔ ∃ names, tree.Addresses path names ∧ tree.node? names = some (.file (.text text)) := by
  constructor
  · intro read
    unfold readText at read
    split at read
    · rename_i names held found
      obtain rfl := Except.ok.inj read
      have found : tree.place path = .holding names (some (.file (.text held))) := found
      exact ⟨names, addresses_of_place found (by simp) (by simp)⟩
    all_goals simp at read
  · rintro ⟨names, addresses, found⟩
    simp [readText, addresses.place_eq, found, Place.holding]

/-- Reading where nothing is finds that the file is absent. -/
theorem Addresses.readText_eq_absent (addresses : tree.Addresses path names)
    (vacant : tree.node? names = none)
    : tree.readText path = .error .absent := by
  simp [readText, addresses.place_eq, vacant, Place.holding]

/-- A file holds a text if the text can be read. -/
theorem holds_iff {text : String}
    : tree.holds path text = true ↔ tree.readText path = .ok text := by
  unfold holds
  cases tree.readText path <;> simp

-----------------------------------------------------------------------------------------
-- Files that change
-----------------------------------------------------------------------------------------

/-- The trees are alike but for one place, where the other tree holds `node`; there is a directory
in neither of them.
-/
structure Alters (tree other : FileTree) (names : List String) (node : Option FileNode)
    : Prop where
  here : other.node? names = node
  elsewhere : ∀ others, others ≠ names → other.node? others = tree.node? others
  noDirectory : node ≠ some .directory
  noDirectoryBefore : tree.node? names ≠ some .directory

/-- A change can be taken back, by putting the old node into its place. -/
theorem Alters.symm {node : Option FileNode} (alters : tree.Alters other names node)
    : other.Alters tree names (tree.node? names) where
  here := rfl
  elsewhere others differs := (alters.elsewhere others differs).symm
  noDirectory := alters.noDirectoryBefore
  noDirectoryBefore := alters.here ▸ alters.noDirectory

/-- A change keeps directories, as neither its old node nor its new one is a directory. -/
theorem Alters.keepsDirectories {node : Option FileNode} (alters : tree.Alters other names node)
    : tree.KeepsDirectories other := by
  intro others present
  have differs : others ≠ names := by
    rintro rfl
    exact alters.noDirectoryBefore present
  rw [alters.elsewhere others differs, present]

/-- Writing puts the content at the place of the path, whether a file is there already or a name is
vacant; every other place refuses.
-/
theorem alters_of_write {content : FileContent} (wrote : tree.write path content = .ok other)
    : ∃ names,
        tree.Addresses path names ∧ tree.Alters other names (some (.file content)) := by
  have set {names : List String} {node : Option FileNode} (found : tree.place path = .holding names node)
      (noDirectory : node ≠ some .directory) (forFile : node = none → path.asksDirectory = false)
      : tree.Addresses path names
        ∧ tree.Alters (tree.set names (.file content)) names (some (.file content)) := by
    obtain ⟨addresses, same⟩ := addresses_of_place found noDirectory forFile
    have below := addresses.leads.ne_nil
    refine ⟨addresses, by simp [node?_set below], ?_, by simp, same ▸ noDirectory⟩
    intro others differs
    rw [node?_set below, if_neg differs]
  unfold write at wrote
  split at wrote
  · rename_i names held found
    obtain rfl := Except.ok.inj wrote
    have found : tree.place path = .holding names (some (.file held)) := found
    exact ⟨names, set found (by simp) (by simp)⟩
  · rename_i names found
    split at wrote
    · simp at wrote
    · rename_i forFile
      obtain rfl := Except.ok.inj wrote
      have found : tree.place path = .holding names none := found
      exact ⟨names, set found (by simp) (fun _ => by simpa using forFile)⟩
  all_goals simp at wrote

/-- Writing succeeds where there is no directory. -/
theorem Addresses.exists_write (addresses : tree.Addresses path names)
    (noDirectory : tree.node? names ≠ some .directory) (content : FileContent)
    : ∃ other, tree.write path content = .ok other := by
  cases held : tree.node? names with
  | none => simp [write, addresses.place_eq, held, Place.holding, addresses.forFile]
  | some node =>
      cases node with
      | directory => exact absurd held noDirectory
      | file before => simp [write, addresses.place_eq, held, Place.holding]

/-- Removing empties the place of the path. -/
theorem alters_of_removeFile (removed : tree.removeFile path = .ok other)
    : ∃ names content,
        tree.Addresses path names
        ∧ tree.node? names = some (.file content)
        ∧ tree.Alters other names none := by
  unfold removeFile at removed
  split at removed
  · rename_i names content found
    obtain rfl := Except.ok.inj removed
    have found : tree.place path = .holding names (some (.file content)) := found
    obtain ⟨addresses, held⟩ := addresses_of_place found (by simp) (by simp)
    have below := addresses.leads.ne_nil
    refine ⟨names, content, addresses, held, by simp [node?_erase below], ?_, by simp, by simp [held]⟩
    intro others differs
    rw [node?_erase below, if_neg differs]
  all_goals simp at removed

/-- Where removing finds nothing, the path leads to no file. -/
theorem not_file_of_absent (absent : tree.removeFile path = .error .absent)
    (addresses : tree.Addresses path names) (content : FileContent)
    : tree.node? names ≠ some (.file content) := by
  intro held
  simp [removeFile, addresses.place_eq, held, Place.holding] at absent

-----------------------------------------------------------------------------------------
-- Directories that are added
-----------------------------------------------------------------------------------------

/-- All that is in one tree is in the other. -/
def Extends (tree other : FileTree) : Prop :=
  ∀ names node, tree.node? names = some node → other.node? names = some node

/-- A tree extends itself. -/
theorem Extends.refl (tree : FileTree) : tree.Extends tree :=
  fun _ _ present => present

/-- Extensions compose, node by node. -/
theorem Extends.trans {last : FileTree} (first : tree.Extends other) (second : other.Extends last)
    : tree.Extends last :=
  fun names node present => second names node (first names node present)

/-- An extension keeps directories, as it keeps all nodes. -/
theorem Extends.keepsDirectories (more : tree.Extends other) : tree.KeepsDirectories other :=
  fun names present => more names .directory present

/-- A node in a vacant place is an extension. -/
theorem extends_set (below : names ≠ []) (vacant : tree.node? names = none) (node : FileNode)
    : tree.Extends (tree.set names node) := by
  intro others found present
  have differs : others ≠ names := by
    rintro rfl
    simp [vacant] at present
  rw [node?_set below, if_neg differs, present]

/-- The other tree has all of this one, and what else it has are directories. -/
structure AddsDirectories (tree other : FileTree) : Prop where
  kept : tree.Extends other
  files
    : ∀ names content,
        other.node? names = some (.file content) → tree.node? names = some (.file content)

/-- No directories are added to a tree by itself. -/
theorem AddsDirectories.refl (tree : FileTree) : tree.AddsDirectories tree :=
  ⟨.refl tree, fun _ _ present => present⟩

/-- Directories may be added in two stages, since files are reflected back through both. -/
theorem AddsDirectories.trans {last : FileTree} (first : tree.AddsDirectories other)
    (second : other.AddsDirectories last)
    : tree.AddsDirectories last where
  kept := first.kept.trans second.kept
  files names content present := first.files names content (second.files names content present)

/-- A directory in a vacant place is added. -/
theorem addsDirectories_set (below : names ≠ []) (vacant : tree.node? names = none)
    : tree.AddsDirectories (tree.set names .directory) where
  kept := extends_set below vacant .directory
  files others content present := by
    rw [node?_set below] at present
    split at present
    · simp at present
    · exact present

/-- Creating directories does nothing else, and where it succeeds the steps lead to a directory, by
induction on the steps.
-/
theorem makeDirectories_spec (tree : FileTree) (base : List String) (steps : List PathStep)
    : tree.AddsDirectories (tree.makeDirectories base steps).1
      ∧ ((tree.makeDirectories base steps).2 = true
        → ∃ names,
            (tree.makeDirectories base steps).1.follow base steps = .node names .directory) := by
  induction steps generalizing tree base with
  | nil => exact ⟨.refl tree, fun _ => ⟨base, rfl⟩⟩
  | cons step rest ih =>
      cases step with
      | root | here | up => exact ih tree _
      | name name =>
          by_cases usable : isUsableName name = true
          · cases found : tree.node? (base ++ [name]) with
            | none =>
                obtain ⟨more, leads⟩ := ih (tree.set (base ++ [name]) .directory) (base ++ [name])
                have entered := more.kept (base ++ [name]) .directory (by simp [node?_set])
                have steps := (addsDirectories_set (by simp) found).trans more
                simp only [makeDirectories, usable, found]
                refine ⟨steps, fun succeeds => ?_⟩
                obtain ⟨names, follows⟩ := leads succeeds
                exact ⟨names, by simpa [follow, usable, entered] using follows⟩
            | some node =>
                cases node with
                | file content =>
                    simp only [makeDirectories, usable, found]
                    exact ⟨.refl tree, by simp⟩
                | directory =>
                    obtain ⟨more, leads⟩ := ih tree (base ++ [name])
                    have entered := more.kept _ _ found
                    simp only [makeDirectories, usable, found]
                    refine ⟨more, fun succeeds => ?_⟩
                    obtain ⟨names, follows⟩ := leads succeeds
                    exact ⟨names, by simpa [follow, usable, entered] using follows⟩
          · simp only [makeDirectories, usable]
            exact ⟨.refl tree, by simp⟩

/-- Making sure of a directory adds directories alone, even where it fails, by induction on the
parents.
-/
theorem addsDirectories_ensureDirectory (tree : FileTree) (path : FilePath)
    : tree.AddsDirectories (tree.ensureDirectory path).1 := by
  unfold ensureDirectory
  split
  · exact .refl tree
  · split
    · exact .refl tree
    · exact (makeDirectories_spec tree [] path.steps).1

/-- A directory that was made sure of is where its path leads. -/
theorem follow_ensureDirectory (ensured : (tree.ensureDirectory path).2 = true)
    : ∃ names, (tree.ensureDirectory path).1.follow [] path.steps = .node names .directory := by
  unfold ensureDirectory at ensured ⊢
  split at ensured
  · rename_i empty
    simp only [empty, if_true]
    refine ⟨[], ?_⟩
    simp [FilePath.steps, FilePath.pieces, empty, FilePath.splitSlashes, follow]
  · rename_i written
    split at ensured
    · simp at ensured
    · rename_i usable
      simp only [written, usable, if_false]
      exact (makeDirectories_spec tree [] path.steps).2 ensured

/-- Where steps lead to a directory, none has to be made. -/
theorem makeDirectories_of_follow {base : List String} {steps : List PathStep}
    (reaches : tree.follow base steps = .node names .directory)
    : tree.makeDirectories base steps = (tree, true) := by
  replace reaches := enters_of_follow reaches
  induction reaches with
  | done => rfl
  | root _ ih | here _ ih | up _ ih => exact ih
  | through usable entered _ ih => simp [makeDirectories, usable, entered, ih]

/-- A directory that was made sure of once is there as long as directories stay. -/
theorem ensureDirectory_of_keepsDirectories (ensured : (tree.ensureDirectory path).2 = true)
    (keeps : (tree.ensureDirectory path).1.KeepsDirectories other)
    : other.ensureDirectory path = (other, true) := by
  obtain ⟨names, reaches⟩ := follow_ensureDirectory ensured
  have there := makeDirectories_of_follow (follow_directory_mono reaches keeps)
  unfold ensureDirectory at ensured ⊢
  split
  · rfl
  · rename_i written
    split
    · rename_i unusable
      simp [written, unusable] at ensured
    · exact there

end Wiring.FileTree
