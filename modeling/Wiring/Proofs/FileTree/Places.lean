import Mathlib.Logic.Basic
import Wiring.FileTree

/-! Where paths lead. A path leads over directories to one place, whatever is at that place; files
come and go without making a difference to it.
-/

namespace Wiring

/-- The place at `names`, with the node that may be there. -/
def Place.holding (names : List String) : Option FileNode → Place
  | some found => .node names found
  | none => .vacant names

/-- A place is at one list of names. -/
theorem Place.eq_of_holding {names others : List String} {node other : Option FileNode}
    (same : holding names node = holding others other)
    : names = others := by
  cases node <;> cases other <;> simp_all [holding]

namespace FileTree

variable {tree other : FileTree}

-----------------------------------------------------------------------------------------
-- Nodes
-----------------------------------------------------------------------------------------

/-- Dropping a node does not matter to another lookup, by induction on the nodes. -/
theorem lookup_filter_ne {names others : List String} (distinct : others ≠ names)
    (nodes : List (List String × FileNode))
    : (nodes.filter fun (found, _) => found ≠ names).lookup others = nodes.lookup others := by
  induction nodes with
  | nil => rfl
  | cons first rest ih =>
      obtain ⟨found, node⟩ := first
      simp only [ne_eq, decide_not] at ih
      by_cases same : found = names
      · subst same
        have differs : (others == found) = false := by simpa using distinct
        simp [List.lookup_cons, differs, ih]
      · simp [List.lookup_cons, same, ih]

/-- Setting a node changes that node only. -/
theorem node?_set {names : List String} (below : names ≠ []) (node : FileNode)
    (others : List String)
    : (tree.set names node).node? others = if others = names then some node else tree.node? others := by
  by_cases same : others = names
  · simp [node?, set, same, below]
  · have differs : (others == names) = false := by simpa using same
    simp only [node?, set, List.lookup_cons, differs, lookup_filter_ne same, same, if_false]

/-- Erasing a node erases that node only. -/
theorem node?_erase {names : List String} (below : names ≠ []) (others : List String)
    : (tree.erase names).node? others = if others = names then none else tree.node? others := by
  by_cases same : others = names
  · simp only [node?, erase, same, below, if_false, if_true, List.lookup_eq_none_iff]
    simp only [List.mem_filter]
    rintro entry ⟨_, kept⟩
    have differs : entry.1 ≠ names := by simpa using kept
    simpa using differs.symm
  · simp only [node?, erase, lookup_filter_ne same, same, if_false]

-----------------------------------------------------------------------------------------
-- Ways over directories
-----------------------------------------------------------------------------------------

/-- The steps lead from the directory at `base` to the place at `names`: every step but the last one
ends in a directory that is there.
-/
inductive Leads (tree : FileTree) : List String → List PathStep → List String → Prop
  | root {base rest names} (after : tree.Leads [] rest names)
    : tree.Leads base (.root :: rest) names
  | here {base rest names} (after : tree.Leads base rest names)
    : tree.Leads base (.here :: rest) names
  | up {base rest names} (after : tree.Leads base.dropLast rest names)
    : tree.Leads base (.up :: rest) names
  | through {base name rest names} (usable : isUsableName name = true)
    (entered : tree.node? (base ++ [name]) = some .directory)
    (after : tree.Leads (base ++ [name]) rest names)
    : tree.Leads base (.name name :: rest) names
  | last {base name} (usable : isUsableName name = true)
    : tree.Leads base [.name name] (base ++ [name])

variable {base names : List String} {steps : List PathStep}

/-- A path that leads to a place leads below the top, since its last step is a name. -/
theorem Leads.ne_nil (leads : tree.Leads base steps names) : names ≠ [] := by
  induction leads with
  | root _ ih | here _ ih | up _ ih | through _ _ _ ih => exact ih
  | last => simp

/-- What is found on a way is the node at its end. -/
theorem Leads.follow_eq (leads : tree.Leads base steps names)
    : tree.follow base steps = .holding names (tree.node? names) := by
  induction leads with
  | root _ ih | here _ ih | up _ ih => exact ih
  | through usable entered _ ih => simp [follow, usable, entered, ih]
  | @last base name usable =>
      cases found : tree.node? (base ++ [name]) with
      | none => simp [follow, usable, found, Place.holding]
      | some node => cases node <;> simp [follow, usable, found, Place.holding]

/-- Whatever is found, other than a directory, is found at the end of a way, by induction on the steps,
with a case for each thing that may stand under a name.
-/
theorem leads_of_follow {node : Option FileNode} (found : tree.follow base steps = .holding names node)
    (noDirectory : node ≠ some .directory)
    : tree.Leads base steps names := by
  induction steps generalizing base with
  | nil =>
      cases node with
      | none => simp [follow, Place.holding] at found
      | some node =>
          simp only [follow, Place.holding, Place.node.injEq] at found
          exact absurd (congrArg some found.2.symm) noDirectory
  | cons step rest ih =>
      cases step with
      | root => exact .root (ih found)
      | here => exact .here (ih found)
      | up => exact .up (ih found)
      | name name =>
          unfold follow at found
          split at found
          · cases node <;> simp [Place.holding] at found
          · rename_i usable
            have usable : isUsableName name = true := by simpa using usable
            split at found
            · rename_i entered
              exact .through usable entered (ih found)
            · split at found
              · rename_i content _ isLast
                obtain rfl : rest = [] := by simpa using isLast
                cases node with
                | none => simp [Place.holding] at found
                | some node =>
                    simp only [Place.holding, Place.node.injEq] at found
                    exact found.1 ▸ .last usable
              · cases node <;> simp [Place.holding] at found
            · split at found
              · rename_i isLast
                obtain rfl : rest = [] := by simpa using isLast
                cases node with
                | none =>
                    simp only [Place.holding, Place.vacant.injEq] at found
                    exact found ▸ .last usable
                | some node => simp [Place.holding] at found
              · cases node <;> simp [Place.holding] at found

/-- One way leads to one place. -/
theorem Leads.unique {others : List String} (leads : tree.Leads base steps names)
    (again : tree.Leads base steps others)
    : names = others := by
  have same := leads.follow_eq.symm.trans again.follow_eq
  cases here : tree.node? names <;> cases there : tree.node? others
    <;> simp_all [Place.holding]

/-- All directories of one tree are directories of the other. -/
def KeepsDirectories (tree other : FileTree) : Prop :=
  ∀ names, tree.node? names = some .directory → other.node? names = some .directory

/-- A tree keeps its own directories. -/
theorem KeepsDirectories.refl (tree : FileTree) : tree.KeepsDirectories tree :=
  fun _ present => present

/-- Keeping directories composes, directory by directory. -/
theorem KeepsDirectories.trans {last : FileTree} (first : tree.KeepsDirectories other)
    (second : other.KeepsDirectories last)
    : tree.KeepsDirectories last :=
  fun names present => second names (first names present)

/-- A way stays one as long as its directories do. -/
theorem Leads.mono (leads : tree.Leads base steps names) (keeps : tree.KeepsDirectories other)
    : other.Leads base steps names := by
  induction leads with
  | root _ ih => exact .root ih
  | here _ ih => exact .here ih
  | up _ ih => exact .up ih
  | through usable entered _ ih => exact .through usable (keeps _ entered) ih
  | last usable => exact .last usable

-----------------------------------------------------------------------------------------
-- Ways below a directory
-----------------------------------------------------------------------------------------

/-- The steps lead from the directory at `top` over directories into the one at `last`. -/
inductive Enters (tree : FileTree) : List String → List PathStep → List String → Prop
  | done {top} : tree.Enters top [] top
  | root {top rest last} (after : tree.Enters [] rest last)
    : tree.Enters top (.root :: rest) last
  | here {top rest last} (after : tree.Enters top rest last)
    : tree.Enters top (.here :: rest) last
  | up {top rest last} (after : tree.Enters top.dropLast rest last)
    : tree.Enters top (.up :: rest) last
  | through {top name rest last} (usable : isUsableName name = true)
    (entered : tree.node? (top ++ [name]) = some .directory)
    (after : tree.Enters (top ++ [name]) rest last)
    : tree.Enters top (.name name :: rest) last

/-- Steps that enter a directory are followed to it, by induction on them. -/
theorem Enters.follow_eq {last : List String} (enters : tree.Enters base steps last)
    : tree.follow base steps = .node last .directory := by
  induction enters with
  | done => rfl
  | root _ ih | here _ ih | up _ ih => exact ih
  | through usable entered _ ih => simp [follow, usable, entered, ih]

/-- A directory that is found is entered, by induction on the steps. -/
theorem enters_of_follow {last : List String}
    (reaches : tree.follow base steps = .node last .directory)
    : tree.Enters base steps last := by
  induction steps generalizing base with
  | nil =>
      obtain rfl : base = last := by simpa [follow] using reaches
      exact .done
  | cons step rest ih =>
      cases step with
      | root => exact .root (ih reaches)
      | here => exact .here (ih reaches)
      | up => exact .up (ih reaches)
      | name name =>
          unfold follow at reaches
          split at reaches
          · cases reaches
          · rename_i usable
            split at reaches
            · rename_i entered
              exact .through (by simpa using usable) entered (ih reaches)
            · split at reaches <;> simp at reaches
            · split at reaches <;> simp at reaches

/-- Steps to a directory lead to it as long as the directories on the way stay. -/
theorem follow_directory_mono {top : List String} {front : List PathStep}
    (reaches : tree.follow top front = .node base .directory)
    (keeps : tree.KeepsDirectories other)
    : other.follow top front = .node base .directory := by
  apply Enters.follow_eq
  replace reaches := enters_of_follow reaches
  induction reaches with
  | done => exact .done
  | root _ ih => exact .root ih
  | here _ ih => exact .here ih
  | up _ ih => exact .up ih
  | through usable entered _ ih => exact .through usable (keeps _ entered) ih

/-- A way through names alone ends under the last of them. -/
theorem Leads.eq_append {segments : List String}
    (leads : tree.Leads base (segments.map .name) names)
    : names = base ++ segments := by
  induction segments generalizing base with
  | nil => cases leads
  | cons first rest ih =>
      cases rest with
      | nil =>
          cases leads with
          | through _ _ after => cases after
          | last => rfl
      | cons second more =>
          cases leads with
          | through _ _ after => simpa using ih after

/-- A way over a directory goes on from there. -/
theorem Leads.of_append {top : List String} {front back : List PathStep}
    (reaches : tree.follow top front = .node base .directory)
    (leads : tree.Leads top (front ++ back) names) (more : back ≠ [])
    : tree.Leads base back names := by
  replace reaches := enters_of_follow reaches
  induction reaches with
  | done => exact leads
  | root _ ih | here _ ih | up _ ih =>
      cases leads
      rename_i after
      exact ih after
  | @through top name rest _ usable entered _ ih =>
      rw [List.cons_append] at leads
      generalize split : rest ++ back = others at leads
      cases leads with
      | through _ _ after => exact ih (split ▸ after)
      | last => exact absurd (List.append_eq_nil_iff.mp split).2 more

end FileTree

end Wiring
