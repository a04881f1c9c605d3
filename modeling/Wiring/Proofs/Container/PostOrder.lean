import Wiring.Proofs.Container.Evaluation

/-! A resolution that succeeds calls constructors in the post-order of a dependency tree: the tree of
the key it was asked for, cut at what is bound. The tree carries the instances, so that it also says
which instance each constructor is handed at each position.
-/

namespace Wiring

namespace Call

/-- The instance that a call makes. -/
def product (id : Nat) (call : Call) : Instance :=
  .mk id call.makes none call.arguments

/-- The instances that calls make in order when `made` instances exist. -/
def products (made : Nat) (calls : List Call) : List Instance :=
  (calls.zipIdx (made + 1)).map fun (call, id) => call.product id

/-- Later calls go on with the numbers that earlier ones have left. -/
theorem products_append (made : Nat) (calls others : List Call)
    : products made (calls ++ others)
      = products made calls ++ products (made + calls.length) others := by
  simp [products, List.zipIdx_append, Nat.add_right_comm]

end Call

/-- What stands for a key: a bound instance, or one built by a recipe from what stands for its
parameters.
-/
inductive ResolutionTree
  | taken (value : Instance)
  | built (recipe : Recipe) (value : Instance) (children : List ResolutionTree)

namespace ResolutionTree

variable {α : Type}

/-- The instance that a tree stands for, whether taken or built. -/
def value : ResolutionTree → Instance
  | taken value | built _ value _ => value

mutual

/-- What `visit` says of the nodes that are built: each after those below it, from left to right. -/
def postorder (visit : Recipe → Instance → List ResolutionTree → α) : ResolutionTree → List α
  | taken _ => []
  | built recipe value children => postorderEach visit children ++ [visit recipe value children]

/-- The visits to several trees, one after the other. -/
def postorderEach (visit : Recipe → Instance → List ResolutionTree → α)
    : List ResolutionTree → List α
  | [] => []
  | first :: rest => postorder visit first ++ postorderEach visit rest

end

/-- The call that builds a node: its recipe is handed the values of its children. -/
def nodeCall (recipe : Recipe) (_ : Instance) (children : List ResolutionTree) : Call :=
  ⟨recipe.makes, children.map value⟩

/-- A visit that looks at the built instance alone. -/
def nodeValue (_ : Recipe) (value : Instance) (_ : List ResolutionTree) : Instance :=
  value

mutual

/-- The tree is the dependency tree of the key. It ends where a key is bound; elsewhere the recipe
that counts for the key makes its very type, and has one child for each parameter.
-/
def GrownFor (container : Container) (key : TypeKey) : ResolutionTree → Prop
  | taken value => container.bindings.get? key = some value
  | built recipe _ children =>
      container.bindings.get? key = none
      ∧ Recipe.find? container.recipes key = some recipe
      ∧ recipe.makes = key
      ∧ GrownForEach container recipe.parameters children

/-- The trees have grown for the keys, in order and one for each. -/
def GrownForEach (container : Container) : List TypeKey → List ResolutionTree → Prop
  | [], [] => True
  | key :: keys, tree :: trees => GrownFor container key tree ∧ GrownForEach container keys trees
  | _, _ => False

end

variable {container : Container}

/-- Keys in order have one tree each. -/
theorem GrownForEach.length_eq {keys : List TypeKey} {trees : List ResolutionTree}
    (grown : GrownForEach container keys trees)
    : trees.length = keys.length := by
  induction trees generalizing keys with
  | nil => cases keys <;> simp [GrownForEach] at grown ⊢
  | cons tree trees ih =>
      cases keys with
      | nil => simp [GrownForEach] at grown
      | cons key keys => simpa using ih grown.2

mutual

/-- Every node that is built stands where its recipe counts, with one child for each parameter. -/
theorem GrownFor.of_mem_postorder {visit : Recipe → Instance → List ResolutionTree → α}
    {key : TypeKey} {tree : ResolutionTree} {item : α}
    (grown : GrownFor container key tree) (member : item ∈ tree.postorder visit)
    : ∃ recipe value children,
        item = visit recipe value children
        ∧ Recipe.find? container.recipes recipe.makes = some recipe
        ∧ GrownForEach container recipe.parameters children := by
  match tree with
  | .taken value => simp [postorder] at member
  | .built recipe value children =>
      obtain ⟨_, found, makes, below⟩ := grown
      rw [postorder, List.mem_append, List.mem_singleton] at member
      rcases member with member | rfl
      · exact below.of_mem_postorderEach member
      · exact ⟨recipe, value, children, rfl, by rw [makes, found], below⟩

/-- What a visit to several trees yields comes from a node of one of them, by the two recursions of the
visit.
-/
theorem GrownForEach.of_mem_postorderEach
    {visit : Recipe → Instance → List ResolutionTree → α} {keys : List TypeKey}
    {trees : List ResolutionTree} {item : α}
    (grown : GrownForEach container keys trees) (member : item ∈ postorderEach visit trees)
    : ∃ recipe value children,
        item = visit recipe value children
        ∧ Recipe.find? container.recipes recipe.makes = some recipe
        ∧ GrownForEach container recipe.parameters children := by
  match trees with
  | [] => simp [postorderEach] at member
  | tree :: trees =>
      cases keys with
      | nil => simp [GrownForEach] at grown
      | cons key keys =>
          rw [postorderEach, List.mem_append] at member
          rcases member with member | member
          · exact grown.1.of_mem_postorder member
          · exact grown.2.of_mem_postorderEach member

end

/-- Calls that trees account for, made when `made` instances existed: they are the post-order of the
trees, and each node holds the instance that its own call makes.
-/
structure Accounts (made : Nat) (trees : List ResolutionTree) (calls : List Call) : Prop where
  called : calls = postorderEach nodeCall trees
  made : postorderEach nodeValue trees = Call.products made calls

/-- No trees account for no calls. -/
theorem Accounts.nil (made : Nat)
    : Accounts made [] [] :=
  ⟨rfl, rfl⟩

/-- The calls of the first tree come before those of the others. -/
theorem Accounts.cons {made : Nat} {tree : ResolutionTree} {trees : List ResolutionTree}
    {calls others : List Call} (first : Accounts made [tree] calls)
    (rest : Accounts (made + calls.length) trees others)
    : Accounts made (tree :: trees) (calls ++ others) := by
  obtain ⟨called, products⟩ := first
  simp only [postorderEach, List.append_nil] at called products
  constructor
  · rw [postorderEach, ← called, ← rest.called]
  · rw [postorderEach, products, rest.made, Call.products_append]

/-- A bound instance is taken without a call. -/
theorem Accounts.taken (made : Nat) (value : Instance)
    : Accounts made [.taken value] [] :=
  ⟨rfl, rfl⟩

/-- A node is built by the call that follows those of its children. -/
theorem Accounts.built {made : Nat} {children : List ResolutionTree} {calls : List Call}
    (below : Accounts made children calls) (recipe : Recipe)
    : Accounts made
        [.built recipe (.mk (made + calls.length + 1) recipe.makes none (children.map value))
          children]
        (calls ++ [⟨recipe.makes, children.map value⟩]) := by
  constructor
  · simp [postorderEach, postorder, nodeCall, ← below.called]
  · rw [Call.products_append, ← below.made]
    simp [postorderEach, postorder, nodeValue, Call.products, Call.product]

end ResolutionTree

namespace Container

open ResolutionTree

variable {container : Container}

/-- What has been made and called so far is accounted for by trees, level by level. -/
theorem invariant_accounts (container : Container)
    : container.Invariant
        (fun made key outcome =>
          outcome.made = made + outcome.calls.length
          ∧ ∀ value,
              outcome.result = .ok value
              → value.type = key
              → ∃ tree : ResolutionTree,
                  tree.GrownFor container key
                  ∧ Accounts made [tree] outcome.calls
                  ∧ tree.value = value)
        (fun made keys outcome =>
          outcome.made = made + outcome.calls.length
          ∧ ∀ values,
              outcome.result = .ok values
              → ∃ trees : List ResolutionTree,
                  GrownForEach container keys trees
                  ∧ Accounts made trees outcome.calls
                  ∧ trees.map ResolutionTree.value = values) where
  taken bound := by
    refine ⟨rfl, ?_⟩
    intro value succeeded _
    obtain rfl := Except.ok.inj succeeded
    exact ⟨.taken _, bound, .taken _ _, rfl⟩
  missing _ _ := ⟨rfl, by simp⟩
  spoiled _ _ parameters _ := ⟨parameters.1, by simp⟩
  built {made key recipe values parts} unbound found parameters succeeded := by
    obtain ⟨counted, grown⟩ := parameters
    obtain ⟨trees, grown, accounts, rfl⟩ := grown values succeeded
    refine ⟨by simp [counted, Nat.add_assoc], ?_⟩
    intro value same typed
    obtain rfl := Except.ok.inj same
    refine ⟨.built recipe _ trees, ⟨unbound, found, typed, grown⟩, ?_, rfl⟩
    rw [counted]
    exact accounts.built recipe
  finished := by
    refine ⟨rfl, ?_⟩
    intro values succeeded
    obtain rfl := Except.ok.inj succeeded
    exact ⟨[], trivial, .nil _, rfl⟩
  stuck head _ := ⟨head.1, by simp⟩
  advanced {made first rest value head others} one succeeded typed each := by
    obtain ⟨counted, grown⟩ := one
    obtain ⟨countedRest, grownRest⟩ := each
    refine ⟨by simp [countedRest, counted, Nat.add_assoc], ?_⟩
    intro values same
    obtain ⟨further, remaining, rfl⟩ := map_eq_ok_iff.mp same
    obtain ⟨tree, grown, accounts, rfl⟩ := grown value succeeded typed
    obtain ⟨trees, grownRest, accountsRest, rfl⟩ := grownRest further remaining
    rw [counted] at accountsRest
    exact ⟨tree :: trees, ⟨grown, grownRest⟩, accounts.cons accountsRest, rfl⟩

/-- A resolution that succeeds calls constructors in the post-order of the key's dependency tree cut at
what is bound. Each call is handed one instance for each parameter of its recipe, namely what stands
for that parameter in the tree. The answer is what is bound under the key, and where nothing is, what
the last call makes. The tree is grown along the resolution, by the invariant that accounts for calls
and instances.
-/
theorem resolveTyped?_postorder {container : Container} {made : Nat} {key : TypeKey}
    {outcome : Outcome Instance} {value : Instance}
    (ends : container.resolveTyped? made key = some outcome)
    (succeeds : outcome.result = .ok value)
    : ∃ tree : ResolutionTree,
        tree.GrownFor container key
        ∧ tree.value = value
        ∧ outcome.calls = tree.postorder nodeCall
        ∧ tree.postorder nodeValue = Call.products made outcome.calls
        ∧ (∀ call ∈ outcome.calls,
            ∃ recipe,
              Recipe.find? container.recipes call.makes = some recipe
              ∧ call.arguments.length = recipe.parameters.length)
        ∧ match container.bindings.get? key with
          | some bound => value = bound ∧ outcome.calls = []
          | none => (Call.products made outcome.calls).getLast? = some value := by
  obtain ⟨untyped, resolved, rfl⟩ := Option.map_eq_some_iff.mp ends
  obtain ⟨succeeded, typed⟩ := Outcome.typed_result_eq_ok_iff.mp succeeds
  obtain ⟨_, accounted⟩ := (invariant_accounts container).resolveWithin resolved
  obtain ⟨tree, grown, accounts, rfl⟩ := accounted value succeeded typed
  have called : untyped.calls = tree.postorder nodeCall := by
    simpa only [postorderEach, List.append_nil] using accounts.called
  have products : tree.postorder nodeValue = Call.products made untyped.calls := by
    simpa only [postorderEach, List.append_nil] using accounts.made
  rw [Outcome.typed_eq]
  refine ⟨tree, grown, rfl, called, products, ?_, ?_⟩
  · intro call member
    rw [called] at member
    obtain ⟨recipe, value, children, rfl, found, below⟩ := grown.of_mem_postorder member
    exact ⟨recipe, found, by simpa only [nodeCall, List.length_map] using below.length_eq⟩
  · cases tree with
    | taken value =>
        rw [show container.bindings.get? key = some value from grown]
        exact ⟨rfl, called⟩
    | built recipe value children =>
        rw [grown.1, ← products]
        simp [postorder, nodeValue, ResolutionTree.value]

/-- Two repositories need a client each, and a view needs both of them and what the host binds. -/
def diamond : Container := {
  recipes := [
    { key := ⟨"Client"⟩, parameters := [] },
    { key := ⟨"Left"⟩, parameters := [⟨"Client"⟩] },
    { key := ⟨"Right"⟩, parameters := [⟨"Client"⟩] },
    { key := ⟨"View"⟩, parameters := [⟨"Left"⟩, ⟨"Right"⟩, ⟨"Context"⟩] }
  ]
  bindings := Bindings.insert {} ⟨"Context"⟩ (.mk 1 ⟨"Context"⟩ none [])
}

/-- The view is the last of five instances made, and the sides hold clients of their own. -/
def diamondView : Instance :=
  .mk 6 ⟨"View"⟩ none [
    .mk 3 ⟨"Left"⟩ none [.mk 2 ⟨"Client"⟩ none []],
    .mk 5 ⟨"Right"⟩ none [.mk 4 ⟨"Client"⟩ none []],
    .mk 1 ⟨"Context"⟩ none []
  ]

/-- Witness: a view over two sides that each need a client makes the client twice, before either side.
-/
theorem resolveTyped?_postorder_diamond
    : ∃ outcome,
        diamond.resolveTyped? 1 ⟨"View"⟩ = some outcome
        ∧ outcome.result = .ok diamondView
        ∧ outcome.calls.map (·.makes.name) = ["Client", "Left", "Client", "Right", "View"]
        ∧ ∃ tree : ResolutionTree,
            tree.GrownFor diamond ⟨"View"⟩
            ∧ tree.value = diamondView
            ∧ outcome.calls = tree.postorder nodeCall := by
  obtain ⟨outcome, ends⟩ : ∃ outcome, diamond.resolveTyped? 1 ⟨"View"⟩ = some outcome :=
    ⟨_, rfl⟩
  have succeeds : outcome.result = .ok diamondView :=
    Option.some.inj (congrArg (Option.map Outcome.result) ends).symm
  have called : outcome.calls.map (·.makes.name) = ["Client", "Left", "Client", "Right", "View"] :=
    congrArg (List.map (·.makes.name))
      (Option.some.inj (congrArg (Option.map Outcome.calls) ends).symm)
  obtain ⟨tree, grown, same, calls, _⟩ := resolveTyped?_postorder ends succeeds
  exact ⟨outcome, ends, succeeds, called, tree, grown, same, calls⟩

end Container

end Wiring
