import Wiring.Proofs.FilePath.Parents
import Wiring.Proofs.Replies
import Wiring.Proofs.Store.Histories

/-! Nothing outside of a directory. Artifacts whose paths go down from the directory of a store change
nothing that is not below it. Finishing may remove files elsewhere, if the previous manifest lists any,
but it writes none there.
-/

namespace Wiring

/-- A path that goes down only adds names to the root. -/
theorem Artifact.GoesDown.steps_join {artifact : Artifact} (down : artifact.GoesDown)
    (root : FilePath)
    : (root.join artifact.relativePath.text).steps
      = root.steps ++ artifact.pathNames.map .name := by
  rw [FilePath.steps_join root (FilePath.isPlain_of_steps down.steps_relativePath),
    down.steps_relativePath]

namespace FileTree

variable {tree middle other : FileTree} {base top names : List String} {root path : FilePath}

-----------------------------------------------------------------------------------------
-- Trees that are alike outside
-----------------------------------------------------------------------------------------

/-- The trees are alike, but for what is below the directory at `base`. -/
def AlikeOutside (base : List String) (tree other : FileTree) : Prop :=
  ∀ names, ¬ base <+: names → other.node? names = tree.node? names

/-- A tree is like itself everywhere. -/
theorem AlikeOutside.refl (base : List String) (tree : FileTree) : AlikeOutside base tree tree :=
  fun _ _ => rfl

/-- Being alike outside composes, node by node. -/
theorem AlikeOutside.trans (first : AlikeOutside base tree middle)
    (second : AlikeOutside base middle other)
    : AlikeOutside base tree other :=
  fun names outside => (second names outside).trans (first names outside)

/-- A change inside is no change outside, since it changes its own node alone. -/
theorem Alters.alikeOutside {node : Option FileNode} (alters : tree.Alters other names node)
    (inside : base <+: names)
    : AlikeOutside base tree other := by
  intro others outside
  refine alters.elsewhere others ?_
  rintro rfl
  exact outside inside

/-- Nor is a new node inside. -/
theorem alikeOutside_set (inside : base <+: top) (name : String) (node : FileNode)
    : AlikeOutside base tree (tree.set (top ++ [name]) node) := by
  intro others outside
  rw [node?_set (by simp), if_neg]
  rintro rfl
  exact outside (inside.trans (List.prefix_append top [name]))

/-- Directories are made from where the first steps lead to. -/
theorem makeDirectories_append {front : List PathStep}
    (reaches : tree.follow top front = .node base .directory) (back : List PathStep)
    : tree.makeDirectories top (front ++ back) = tree.makeDirectories base back := by
  replace reaches := enters_of_follow reaches
  induction reaches with
  | done => rfl
  | root _ ih | here _ ih | up _ ih => exact ih
  | through usable entered _ ih => simp [makeDirectories, usable, entered, ih]

/-- Steps by names alone never leave the directory that they start in, by induction on the names. -/
theorem alikeOutside_makeDirectories (inside : base <+: top) (segments : List String)
    : AlikeOutside base tree (tree.makeDirectories top (segments.map .name)).1 := by
  induction segments generalizing tree top with
  | nil => exact .refl base tree
  | cons segment rest ih =>
      have deeper : base <+: top ++ [segment] := inside.trans (List.prefix_append top [segment])
      rw [List.map_cons, makeDirectories]
      split
      · exact .refl base tree
      · split
        · exact ih deeper
        · exact .refl base tree
        · exact (alikeOutside_set inside segment .directory).trans (ih deeper)

/-- Directories that lie below the base are added inside, by induction on their names. -/
theorem alikeOutside_ensureDirectory {segments : List String}
    (reaches : tree.follow [] root.steps = .node base .directory)
    (steps : path.steps = root.steps ++ segments.map .name)
    : AlikeOutside base tree (tree.ensureDirectory path).1 := by
  unfold ensureDirectory
  split
  · exact .refl base tree
  · split
    · exact .refl base tree
    · rw [steps, makeDirectories_append reaches]
      exact alikeOutside_makeDirectories List.prefix_rfl segments

/-- Each file of the other tree was there before, or is below the directory that the path leads to. -/
def WritesBelow (root : FilePath) (tree other : FileTree) : Prop :=
  ∀ names content,
    other.node? names = some (.file content)
    → tree.node? names = some (.file content)
      ∨ ∃ base, other.follow [] root.steps = .node base .directory ∧ base <+: names

/-- Adding directories writes no files at all. -/
theorem AddsDirectories.writesBelow (more : tree.AddsDirectories other) (root : FilePath)
    : tree.WritesBelow root other :=
  fun names content present => .inl (more.files names content present)

/-- So directories that are added first do not matter. -/
theorem AddsDirectories.writesBelow_trans (more : tree.AddsDirectories middle)
    (writes : middle.WritesBelow root other)
    : tree.WritesBelow root other :=
  fun names content present =>
    (writes names content present).imp_left (more.files names content)

/-- What differs inside only has been written below the root, if the root leads there. -/
theorem AlikeOutside.writesBelow (alike : AlikeOutside base tree other)
    (reaches : other.follow [] root.steps = .node base .directory)
    : tree.WritesBelow root other := by
  intro names content present
  by_cases inside : base <+: names
  · exact .inr ⟨base, reaches, inside⟩
  · exact .inl (alike names inside ▸ present)

end FileTree

namespace DirectoryStore

open FileTree

variable {root : FilePath} {base : List String} {start tree : FileTree} {store : DirectoryStore}
  {artifact : Artifact} {state : DirectoryStore × FileTree}

-----------------------------------------------------------------------------------------
-- Writing
-----------------------------------------------------------------------------------------

/-- A file of an artifact that goes down is written inside. -/
theorem alikeOutside_writeFile (down : artifact.GoesDown)
    (reaches : tree.follow [] root.steps = .node base .directory) (store : DirectoryStore)
    : AlikeOutside base tree
        (store.writeFile tree (root.join artifact.relativePath.text) artifact).state.2 := by
  cases result : (store.writeFile tree (root.join artifact.relativePath.text) artifact).result with
  | error failure =>
      rw [writeFile_of_error result]
      exact .refl base tree
  | ok =>
      obtain ⟨names, addresses, alters⟩ := alters_of_writeFile result
      obtain rfl : names = base ++ artifact.pathNames :=
        addresses.leads.eq_append_of_join reaches down.steps_relativePath
          (by simp [Artifact.pathNames])
      exact alters.alikeOutside (List.prefix_append base artifact.pathNames)

/-- An artifact that goes down changes nothing outside of the directory of the store, whether or not it
is taken. Its path runs through the root, and so do the directories that are made for it.
-/
theorem alikeOutside_write (down : artifact.GoesDown)
    (reaches : tree.follow [] store.root.steps = .node base .directory)
    : AlikeOutside base tree (write (store, tree) artifact).state.2 := by
  unfold write
  dsimp only
  split
  · exact .refl base tree
  · split
    · exact alikeOutside_writeFile down reaches store
    · rename_i parent above
      have steps
          : parent.steps = store.root.steps ++ (Artifact.directories artifact.home).map .name := by
        rw [FilePath.steps_parent? above, down.steps_join, Artifact.pathNames,
          List.map_append, List.map_singleton, ← List.append_assoc, List.dropLast_concat]
      have made := alikeOutside_ensureDirectory reaches steps
      have more := addsDirectories_ensureDirectory tree parent
      generalize tree.ensureDirectory parent = ensured at made more ⊢
      obtain ⟨middle, _ | _⟩ := ensured
      · exact made
      · dsimp only at made more ⊢
        have reachesAfter := follow_directory_mono reaches more.kept.keepsDirectories
        exact made.trans (alikeOutside_writeFile down reachesAfter store)

/-- A store at the path, which leads to the directory at `base`; outside of it the tree is as it was at
the start.
-/
structure Confined (root : FilePath) (base : List String) (start : FileTree)
    (state : DirectoryStore × FileTree)
    : Prop where
  root_eq : state.1.root = root
  reaches : state.2.follow [] root.steps = .node base .directory
  outside : AlikeOutside base start state.2

/-- A store stays confined when it writes, whether or not it takes the artifact. -/
theorem Confined.write (confined : Confined root base start state) (down : artifact.GoesDown)
    : Confined root base start (write state artifact).state := by
  obtain ⟨rfl, reaches, outside⟩ := confined
  have continues := continues_write state artifact
  exact ⟨continues.root, follow_directory_mono reaches continues.directories,
    outside.trans (alikeOutside_write down reaches)⟩

-----------------------------------------------------------------------------------------
-- Opening and finishing
-----------------------------------------------------------------------------------------

/-- A store that opens is confined to where its root leads, for opening has made sure of that
directory.
-/
theorem confined_of_openAt (opened : (openAt root tree).result = .ok store)
    : ∃ base, Confined root base (openAt root tree).state (store, (openAt root tree).state) := by
  obtain ⟨same, ensured, _, _, rfl⟩ := openAt_eq_ok opened
  obtain ⟨base, reaches⟩ := follow_ensureDirectory ensured
  exact ⟨base, rfl, same ▸ reaches, .refl base _⟩

/-- Opening a store adds directories at most, whether or not it succeeds. -/
theorem addsDirectories_openAt (root : FilePath) (tree : FileTree)
    : tree.AddsDirectories (openAt root tree).state := by
  have more := addsDirectories_ensureDirectory tree root
  unfold openAt
  split
  · rename_i ensured
    rw [ensured] at more
    exact more
  · rename_i ensured
    rw [ensured] at more
    split <;> exact more

/-- Finishing writes nothing but the manifest, which is in the directory of the store. Removals leave
no new files, and the manifest's name is a single step below the root.
-/
theorem Confined.writesBelow_finish (confined : Confined root base start (store, tree))
    : start.WritesBelow root (store.finish tree).state := by
  obtain ⟨rfl, reaches, outside⟩ := confined
  obtain ⟨_, _, clears⟩ := exists_clears_removeEach store.root tree store.stale
  have there := follow_directory_mono reaches clears.directories
  have removed
      : start.WritesBelow store.root (removeEach store.root tree store.stale).state := by
    intro names content present
    by_cases inside : base <+: names
    · exact .inr ⟨base, there, inside⟩
    · exact .inl (outside names inside ▸ clears.extended names _ present)
  unfold finish
  generalize removeEach store.root tree store.stale = reply at removed there
  refine Reply.state_andThen removed fun _ => ?_
  split
  · rename_i after wrote
    obtain ⟨names, addresses, alters⟩ := alters_of_write wrote
    have ownName : (FilePath.mk manifestName).steps = [manifestName].map .name :=
      isSegment_manifestName.steps_eq
    obtain rfl : names = base ++ [manifestName] :=
      addresses.leads.eq_append_of_join there ownName (by simp)
    have reachesAfter := follow_directory_mono there alters.keepsDirectories
    intro others content present
    by_cases here : others = base ++ [manifestName]
    · exact .inr ⟨base, reachesAfter, here ▸ List.prefix_append base [manifestName]⟩
    · have present : reply.state.node? others = some (.file content) :=
        (alters.elsewhere others here).symm.trans present
      refine (removed others content present).imp_right ?_
      rintro ⟨other, leads, inside⟩
      exact ⟨other, follow_directory_mono leads alters.keepsDirectories, inside⟩
  · exact removed

end DirectoryStore

end Wiring
