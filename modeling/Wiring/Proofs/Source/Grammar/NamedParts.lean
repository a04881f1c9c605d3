import Wiring.Proofs.Source.Grammar.Keeping
import Wiring.Source.Grammar.Language

/-! Parts of the grammar whose names are identifiers: all names that an index takes up of items, and
all paths among them.
-/

namespace Wiring

/-- Whether the segments of a path are identifiers. -/
def SpelledPath.Named (path : SpelledPath) : Prop :=
  ∀ segment ∈ path.segments, Source.Identifier.isToken segment = true

namespace Source

open Identifier

/-- A path that stands for its segment consists of identifiers. -/
def PathArguments.Named : PathArguments → Prop
  | .lone path => path.Named
  | .none | .other => True

/-- The name of a segment is an identifier, and its arguments are named. -/
structure PathSegment.Named (segment : PathSegment) : Prop where
  name : isToken segment.name = true
  arguments : segment.arguments.Named

/-- Whether the names in a path are identifiers, those in its arguments included. -/
def TypePath.Named (path : TypePath) : Prop :=
  ∀ segment ∈ path.segments, segment.Named

/-- Without arguments, a named path is one of identifiers. -/
theorem TypePath.Named.spelled {path : TypePath} (named : path.Named)
    : path.spelled.Named := by
  intro segment member
  obtain ⟨inner, among, rfl⟩ := List.mem_map.mp member
  exact (named inner among).name

/-- A type that is a path is named. -/
def TypeExpr.Named (type : TypeExpr) : Prop :=
  ∀ path ∈ type.path?, path.Named

/-- A function is named by an identifier, and the paths in its parameters are named. -/
structure Signature.Named (signature : Signature) : Prop where
  name : isToken signature.name = true
  parameters : ∀ parameter ∈ signature.parameters, parameter.type.Named

mutual

/-- Whether the paths in a tree of imports consist of identifiers. -/
def UseTree.Named : UseTree → Prop
  | .inside word tree => isToken word = true ∧ tree.Named
  | .name word | .rename word _ => isToken word = true
  | .glob => True
  | .group trees => UseTree.AllNamed trees

/-- All of the trees are named. -/
def UseTree.AllNamed : List UseTree → Prop
  | [] => True
  | tree :: rest => tree.Named ∧ UseTree.AllNamed rest

end

/-- Trees are named one by one. -/
theorem UseTree.allNamed_iff {trees : List UseTree}
    : AllNamed trees ↔ ∀ tree ∈ trees, tree.Named := by
  induction trees with
  | nil => simp [AllNamed]
  | cons tree rest ih => rw [AllNamed, ih, List.forall_mem_cons]

/-- A function in a block is named. -/
def Member.Named : Member → Prop
  | .function _ signature => signature.Named
  | .other _ => True

/-- The owner of a block is named, and so are its members. -/
structure ImplBlock.Named (block : ImplBlock) : Prop where
  owner : ∀ path ∈ block.owner?, path.Named
  members : ∀ member ∈ block.members, member.Named

mutual

/-- Whether the names that an item declares are identifiers, and those in the paths that count. The
functions of a trait construct nothing.
-/
def Item.Named : Item → Prop
  | .imports _ _ _ tree => tree.Named
  | .type _ _ name _ | .trait _ name _ _ | .fileModule _ name => isToken name = true
  | .function _ signature => signature.Named
  | .submodule _ name body => isToken name = true ∧ Item.AllNamed body
  | .implementation _ block => block.Named
  | .other _ => True

/-- All of the items are named. -/
def Item.AllNamed : List Item → Prop
  | [] => True
  | item :: rest => item.Named ∧ Item.AllNamed rest

end

/-- Items are named one by one. -/
theorem Item.allNamed_iff {items : List Item}
    : AllNamed items ↔ ∀ item ∈ items, item.Named := by
  induction items with
  | nil => simp [AllNamed]
  | cons item rest ih => rw [AllNamed, ih, List.forall_mem_cons]

namespace Grammar

/-- A type that is read as a path is named. -/
def TypeForm.Named : TypeForm → Prop
  | .path found => found.Named
  | .loneTrait _ | .other => True

/-- So is the path that it is taken for. -/
theorem TypeForm.Named.path? {form : TypeForm} (named : form.Named)
    : ∀ path ∈ form.path?, path.Named := by
  intro path found
  cases form with
  | path given =>
      obtain rfl := Option.some.inj found
      exact named
  | loneTrait _ | other => contradiction

/-- What a part answers of identifiers. -/
def Part.Good : (part : Part) → part.Result → Prop
  | .type _ => TypeForm.Named
  | .item => Item.Named
  | .bound .. | .expression _ | .operand .. | .operators .. | .earlyExpression _ | .statements
  | .pattern => fun _ => True

/-- Whether all parsers for what stands inside keep to identifiers. -/
def Nested.Named (nested : Nested) : Prop :=
  ∀ part, Keeps part.Good (nested part)

namespace Nested.Named

variable {nested : Nested}

/-- Types inside are named. -/
theorem type (inside : nested.Named) (plus : Bool)
    : Keeps TypeForm.Named (nested.type plus) :=
  inside (.type plus)

/-- Items inside are named. -/
theorem item (inside : nested.Named)
    : Keeps Item.Named nested.item :=
  inside .item

/-- Types inside are steady. These rules are tagged, so that the parts inside of a parser are followed
as well.
-/
@[grind ←]
theorem steady_type (inside : nested.Named) (plus : Bool)
    : Steady (nested.type plus) :=
  (inside _).steady

/-- So are their bounds. -/
@[grind ←]
theorem steady_bound (inside : nested.Named) (captures constants : Bool)
    : Steady (nested.bound captures constants) :=
  (inside _).steady

/-- So are expressions. -/
@[grind ←]
theorem steady_expression (inside : nested.Named) (braces : Bool)
    : Steady (nested.expression braces) :=
  (inside _).steady

/-- So are operands. -/
@[grind ←]
theorem steady_operand (inside : nested.Named) (braces enclosed : Bool)
    : Steady (nested.operand braces enclosed) :=
  (inside _).steady

/-- So are the operators behind one. -/
@[grind ←]
theorem steady_operators (inside : nested.Named) (left : ExpressionForm) (braces : Bool)
    (least : Precedence)
    : Steady (nested.operators left braces least) :=
  (inside _).steady

/-- So are expressions that start a statement. -/
@[grind ←]
theorem steady_earlyExpression (inside : nested.Named) (attributes : Tokens)
    : Steady (nested.earlyExpression attributes) :=
  (inside _).steady

/-- So are patterns. -/
@[grind ←]
theorem steady_pattern (inside : nested.Named)
    : Steady nested.pattern :=
  (inside _).steady

/-- So are items. -/
@[grind ←]
theorem steady_item (inside : nested.Named)
    : Steady nested.item :=
  (inside _).steady

end Nested.Named

end Grammar

end Source

end Wiring
