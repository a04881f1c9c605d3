import Mathlib.Data.List.Chain
import Mathlib.Logic.Relation
import Wiring.Proofs.Blueprint.SearchRuns

/-! The search for a cycle. What it reports is a cycle of needs, closed and without detours. Where
it reports none, it has put all targets into an order in which every type follows what it needs.
-/

namespace Wiring.Blueprint

variable {blueprint : Blueprint}

-----------------------------------------------------------------------------------------
-- What is reported is a cycle
-----------------------------------------------------------------------------------------

/-- A path that ends where it began, each type on it needing the next, and no other type twice. -/
structure IsCycle (blueprint : Blueprint) (path : List TypeName) : Prop where
  chain : path.IsChain blueprint.Needs
  closed : path.head? = path.getLast?
  long : 2 ≤ path.length
  distinct : path.dropLast.Nodup

/-- A path that comes back to a type on it is closed there. What is reported is the end of the path
from that type on, so it is a chain and holds no type twice.
-/
theorem isCycle_closeAt {path : List TypeName} {type : TypeName}
    (chain : (path ++ [type]).IsChain blueprint.Needs) (distinct : path.Nodup)
    (back : type ∈ path)
    : blueprint.IsCycle (closeAt type path) := by
  obtain ⟨front, rest, split, absent⟩ := List.eq_append_cons_of_mem back
  have closing : closeAt type path = type :: rest ++ [type] := by
    have passed : ∀ other ∈ front, (other ≠ type : Bool) = true := by
      intro other member
      simp only [ne_eq, decide_not, Bool.not_eq_true', decide_eq_false_iff_not]
      rintro rfl
      exact absent member
    rw [closeAt, split, List.dropWhile_append_of_pos passed]
    simp
  have suffix : closeAt type path <:+ path ++ [type] :=
    ⟨front, by rw [closing, split]; simp⟩
  refine ⟨chain.suffix suffix, ?_, ?_, ?_⟩
  · rw [closing, List.getLast?_concat]
    rfl
  · simp [closing]
  · rw [closing, List.dropLast_concat]
    exact distinct.sublist (split ▸ List.sublist_append_right _ _)

/-- A search that stops has met a cycle, by induction on the search. The path is a chain of needs
without repetition, and stays one with every type that it is led on to.
-/
theorem SearchEnds.isCycle {path done types found : List TypeName}
    (ends : blueprint.SearchEnds path done types (.cycle found))
    (chain : ∀ type ∈ types, (path ++ [type]).IsChain blueprint.Needs) (distinct : path.Nodup)
    : blueprint.IsCycle found := by
  generalize reported : Search.cycle found = outcome at ends
  induction ends with
  | finished => cases reported
  | @closed path done type rest onPath =>
      obtain rfl := Search.cycle.inj reported
      exact isCycle_closeAt (chain type (by simp)) distinct onPath
  | @known path done type rest outcome _ _ _ ih =>
      exact ih (fun other member => chain other (List.mem_cons_of_mem type member)) distinct reported
  | @stopped path done type rest cycle offPath _ _ ih =>
      refine ih ?_ ?_ reported
      · intro parameter needed
        rw [List.isChain_append]
        refine ⟨chain type (by simp), by simp, ?_⟩
        intro last isLast first isFirst
        obtain rfl : type = last := by simpa using isLast
        obtain rfl : parameter = first := by simpa using isFirst
        exact needed
      · simpa only [List.concat_eq_append] using distinct.concat offPath
  | @passed path done type rest more outcome _ _ _ _ _ ih =>
      exact ih (fun other member => chain other (List.mem_cons_of_mem type member)) distinct reported

/-- What is reported is a cycle. -/
theorem isCycle_of_firstCycle? {cycle : List TypeName}
    (reported : blueprint.firstCycle? = some cycle)
    : blueprint.IsCycle cycle := by
  obtain ⟨found, ends, same⟩ := exists_searchEnds blueprint
  rw [same] at reported
  cases found with
  | clear done => cases reported
  | cycle path =>
      obtain rfl := Option.some.inj reported
      exact ends.isCycle (by simp) .nil

/-- Every type on a cycle needs a type on it, namely the one behind it, and for the last one that
behind the first.
-/
theorem IsCycle.exists_needs {cycle : List TypeName} (isCycle : blueprint.IsCycle cycle)
    {type : TypeName} (member : type ∈ cycle)
    : ∃ next ∈ cycle, blueprint.Needs type next := by
  obtain ⟨front, back, rfl⟩ := List.append_of_mem member
  cases back with
  | cons next back =>
      exact ⟨next, by simp, (List.isChain_append_cons_cons.mp isCycle.chain).2.1⟩
  | nil =>
      -- The last type is the first one too, and a second one follows that.
      have closed := isCycle.closed
      rw [List.getLast?_concat] at closed
      match front with
      | [] => exact absurd isCycle.long (by simp)
      | [first] =>
          obtain rfl : first = type := by simpa using closed
          exact ⟨first, by simp, (List.isChain_cons_cons.mp isCycle.chain).1⟩
      | first :: second :: rest =>
          obtain rfl : first = type := by simpa using closed
          exact ⟨second, by simp, (List.isChain_cons_cons.mp isCycle.chain).1⟩

/-- No type needs itself, neither at once nor through others. -/
def Acyclic (blueprint : Blueprint) : Prop :=
  ∀ type, ¬ Relation.TransGen blueprint.Needs type type

/-- The first type on a cycle needs itself through the others. -/
theorem IsCycle.not_acyclic {cycle : List TypeName} (isCycle : blueprint.IsCycle cycle)
    : ¬ blueprint.Acyclic := by
  match cycle, isCycle with
  | [], isCycle => exact absurd isCycle.long (by simp)
  | [_], isCycle => exact absurd isCycle.long (by simp)
  | first :: second :: rest, isCycle =>
      intro acyclic
      obtain ⟨step, chain⟩ := List.isChain_cons_cons.mp isCycle.chain
      have closed : (second :: rest).getLast (by simp) = first := by
        have closed := isCycle.closed
        rw [List.getLast?_cons_cons, List.getLast?_eq_some_getLast (by simp)] at closed
        exact (Option.some.inj closed).symm
      have back := List.relationReflTransGen_of_exists_isChain_cons rest chain closed
      exact acyclic first (.head' step back)

-----------------------------------------------------------------------------------------
-- Where no cycle is reported, what is needed comes first
-----------------------------------------------------------------------------------------

/-- Types in an order in which each follows all that it needs. -/
inductive Settled (blueprint : Blueprint) : List TypeName → Prop
  | nil : Settled blueprint []
  | snoc {done type} (before : Settled blueprint done)
    (met : ∀ parameter, blueprint.Needs type parameter → parameter ∈ done)
    : Settled blueprint (done ++ [type])

/-- What a search adds to types in a settled order: all that it went through, in an order that stays
settled.
-/
structure Settles (blueprint : Blueprint) (done types found : List TypeName) : Prop where
  settled : blueprint.Settled found
  kept : done ⊆ found
  reached : types ⊆ found

/-- A search that meets no cycle settles all types it goes through, by induction on the search. -/
theorem SearchEnds.settles {path done types found : List TypeName}
    (ends : blueprint.SearchEnds path done types (.clear found)) (settled : blueprint.Settled done)
    : blueprint.Settles done types found := by
  generalize cleared : Search.clear found = outcome at ends
  induction ends generalizing found with
  | finished =>
      obtain rfl := Search.clear.inj cleared
      exact ⟨settled, List.Subset.refl _, List.nil_subset _⟩
  | closed => cases cleared
  | known _ seen _ ih =>
      have after := ih settled cleared
      exact ⟨after.settled, after.kept, List.cons_subset.mpr ⟨after.kept seen, after.reached⟩⟩
  | stopped => cases cleared
  | @passed path done type rest more outcome _ _ _ _ below later =>
      have parameters := below settled rfl
      have after := later (.snoc parameters.settled fun _ needed => parameters.reached needed) cleared
      obtain ⟨kept, here⟩ := List.append_subset.mp after.kept
      exact ⟨after.settled, List.Subset.trans parameters.kept kept,
        List.cons_subset.mpr ⟨here (by simp), after.reached⟩⟩

/-- Where no cycle is reported, all targets stand in an order in which each follows what it needs.
-/
theorem exists_settled_of_firstCycle?_eq_none (clear : blueprint.firstCycle? = none)
    : ∃ order, blueprint.Settled order ∧ blueprint.targets ⊆ order := by
  obtain ⟨found, ends, same⟩ := exists_searchEnds blueprint
  rw [same] at clear
  cases found with
  | cycle path => cases clear
  | clear order =>
      have settles := ends.settles .nil
      exact ⟨order, settles.settled, settles.reached⟩

/-- What a settled type needs is settled too. -/
theorem Settled.mem_of_needs {order : List TypeName} (settled : blueprint.Settled order)
    {type parameter : TypeName} (member : type ∈ order)
    (needs : blueprint.Needs type parameter)
    : parameter ∈ order := by
  induction settled with
  | nil => simp at member
  | @snoc done last _ met ih =>
      rcases List.mem_append.mp member with earlier | isLast
      · exact List.mem_append_left _ (ih earlier)
      · obtain rfl : type = last := by simpa using isLast
        exact List.mem_append_left _ (met parameter needs)

/-- So is what it needs through others. -/
theorem Settled.mem_of_transGen {order : List TypeName} (settled : blueprint.Settled order)
    {type other : TypeName} (member : type ∈ order)
    (needs : Relation.TransGen blueprint.Needs type other)
    : other ∈ order := by
  induction needs with
  | single needs => exact settled.mem_of_needs member needs
  | tail _ needs ih => exact settled.mem_of_needs ih needs

/-- Nothing settled needs itself, by induction on the order: the last type is needed by none before
it.
-/
theorem Settled.not_transGen {order : List TypeName} (settled : blueprint.Settled order)
    : ∀ type ∈ order, ¬ Relation.TransGen blueprint.Needs type type := by
  induction settled with
  | nil => simp
  | @snoc done last before met ih =>
      intro type member needs
      have earlier : type ∈ done := by
        rcases List.mem_append.mp member with earlier | isLast
        · exact earlier
        · obtain rfl : type = last := by simpa using isLast
          obtain ⟨parameter, first, back⟩ := Relation.TransGen.head'_iff.mp needs
          rcases Relation.reflTransGen_iff_eq_or_transGen.mp back with rfl | back
          · exact met _ first
          · exact before.mem_of_transGen (met parameter first) back
      exact ih type earlier needs

/-- The search reports a cycle if and only if there is one. -/
theorem firstCycle?_eq_none_iff
    : blueprint.firstCycle? = none ↔ blueprint.Acyclic := by
  constructor
  · intro clear type needs
    obtain ⟨order, settled, covered⟩ := exists_settled_of_firstCycle?_eq_none clear
    obtain ⟨parameter, first, _⟩ := Relation.TransGen.head'_iff.mp needs
    exact settled.not_transGen type (covered first.mem_targets) needs
  · intro acyclic
    rw [Option.eq_none_iff_forall_ne_some]
    intro cycle reported
    exact (isCycle_of_firstCycle? reported).not_acyclic acyclic

end Wiring.Blueprint
