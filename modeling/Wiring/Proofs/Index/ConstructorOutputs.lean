import Wiring.Proofs.Index.ImportedPaths
import Wiring.Proofs.Index.MarkedDeclarations
import Wiring.Proofs.Index.ReexportedModules

/-! What constructors return. A function is taken for a constructor by the last segment of the path that
it returns. `Self` and the owner as it is written lead to the owner, whatever the file imports; another path
with that last segment does so where no import of its scope takes it elsewhere.
-/

namespace Wiring

open Source Segments

-----------------------------------------------------------------------------------------
-- Forms of constructors
-----------------------------------------------------------------------------------------

namespace Source

/-- The path that a signature returns, if its output is one. -/
def Signature.returned? (signature : Signature) : Option TypePath :=
  signature.output.bind TypeExpr.path?

/-- Whether a path ends in `Self`, or in the name that the owner ends in, and takes no arguments there. -/
def TypePath.EndsAs (returned owner : TypePath) : Prop :=
  ∃ last,
    returned.segments.getLast? = some last
      ∧ last.arguments = .none
      ∧ (last.name = "Self" ∨ owner.spelled.last? = some last.name)

/-- What makes a function of a block a constructor. -/
structure Signature.Constructs (signature : Signature) (block : ImplBlock) (owner returned : TypePath)
    : Prop where
  inherent : block.ofTrait = false
  owned : block.owner? = some owner
  takesNoSelf : signature.takesSelf = false
  isNotAsync : signature.isAsync = false
  isNotGeneric : signature.isGeneric = false
  returns : signature.returned? = some returned
  endsAs : returned.EndsAs owner

/-- A function is taken to return its owner by the last segment of a path: it has no arguments there,
and is `Self` or the name of the owner.
-/
theorem Signature.returnsOwner_eq_true {signature : Signature} {owner : Option SpelledPath}
    (returns : signature.returnsOwner owner = true)
    : ∃ returned last,
        signature.returned? = some returned
          ∧ returned.segments.getLast? = some last
          ∧ last.arguments = .none
          ∧ (last.name = "Self" ∨ owner.bind SpelledPath.last? = some last.name) := by
  unfold returnsOwner at returns
  split at returns
  · rename_i returned output
    split at returns
    · rename_i last ends
      simp only [Bool.and_eq_true, Bool.or_eq_true, decide_eq_true_eq] at returns
      exact ⟨returned, last, output, ends, returns⟩
    · contradiction
  · contradiction

/-- There is no objection where none of the checks raises one, which are made in this order. -/
theorem Signature.objection?_eq_none_iff {signature : Signature} {ofTrait : Bool}
    {owner : Option SpelledPath}
    : signature.objection? ofTrait owner = none
      ↔ ofTrait = false
        ∧ owner.isSome = true
        ∧ signature.takesSelf = false
        ∧ signature.isAsync = false
        ∧ signature.isGeneric = false
        ∧ signature.returnsOwner owner = true := by
  unfold objection?
  cases owner <;> split_ifs <;> simp_all

/-- A function to which there is no objection is a constructor of its owner. -/
theorem Signature.constructs_of_objection? {signature : Signature} {block : ImplBlock}
    (accepted : signature.objection? block.ofTrait (block.owner?.map TypePath.spelled) = none)
    : ∃ owner returned, signature.Constructs block owner returned := by
  obtain ⟨inherent, owned, takesNoSelf, isNotAsync, isNotGeneric, returns⟩ :=
    objection?_eq_none_iff.mp accepted
  obtain ⟨owner, owned⟩ := Option.isSome_iff_exists.mp (Option.isSome_map ▸ owned)
  obtain ⟨returned, last, output, ends, plain, named⟩ := returnsOwner_eq_true returns
  rw [owned] at named
  exact ⟨owner, returned, inherent, owned, takesNoSelf, isNotAsync, isNotGeneric, output,
    last, ends, plain, named⟩

end Source

namespace Index

-----------------------------------------------------------------------------------------
-- Marked constructors and their sources
-----------------------------------------------------------------------------------------

/-- Whether the record, but for the number of its scope, is that of a declaration in the file. -/
def RecordedIn (source : SourceFile) (declaration : Declaration) (marked : Marked) : Prop :=
  ∃ items, Item.ofText? source.content = some items
    ∧ declaration ∈ Item.declarationsOf source.home items
    ∧ declaration.marked? source.path = some (marked.atScope 0)

/-- Of what one file adds, each record is that of a declaration in it. -/
theorem recordedIn_of_mem_take {index : Index} {source : SourceFile} {marked : Marked}
    (added : marked ∈ (index.take source).state.marked)
    : marked ∈ index.marked ∨ ∃ declaration, RecordedIn source declaration marked := by
  cases read : Item.ofText? source.content with
  | none =>
      have kept : (index.take source).state = index := by simp [take, add, read, Reply.failed]
      exact .inl (kept ▸ added)
  | some items =>
      have taken : (index.take source).state = index.addParsed source.path source.home items := by
        simp [take, add, read, Reply.telling, Reply.done]
      obtain ⟨more, grown, same⟩ := (records_addParsed index source.path source.home items).marked
      rw [taken, grown] at added
      rcases List.mem_append.mp added with old | new
      · exact .inl old
      · have among := List.mem_map_of_mem (f := (Marked.atScope · 0)) new
        rw [same] at among
        obtain ⟨declaration, carried, recorded⟩ := List.mem_filterMap.mp among
        exact .inr ⟨declaration, items, read, List.mem_of_mem_filter carried, recorded⟩

/-- Each marked declaration of an index is one of its files, by induction on the files. -/
theorem recordedIn_of_mem_ofAdditions {marker : String} {sources : List SourceFile}
    {marked : Marked} (among : marked ∈ (ofAdditions marker sources).marked)
    : ∃ source ∈ sources, ∃ declaration, RecordedIn source declaration marked := by
  let Found (index : Index) : Prop :=
    marked ∈ index.marked → ∃ source ∈ sources, ∃ declaration, RecordedIn source declaration marked
  refine List.foldlRecOn (motive := Found) sources _ (by simp [Found])
    (fun index ih source member added => ?_) among
  rcases recordedIn_of_mem_take added with old | new
  · exact ih old
  · exact ⟨source, member, new⟩

/-- Whether the marked declaration is a function in one of the files that has the form of a constructor
for a block of the owner, and returns the path.
-/
def ConstructorIn (sources : List SourceFile) (marked : Marked) (owner returned : TypePath) : Prop :=
  ∃ source ∈ sources, ∃ home block attributes signature,
    RecordedIn source (.blockMember home block (.function attributes signature)) marked
      ∧ signature.Constructs block owner returned

/-- What is recorded without an objection is recorded of a constructor. -/
theorem exists_constructorIn {marker : String} {sources : List SourceFile} {marked : Marked}
    (among : marked ∈ (ofAdditions marker sources).marked) (accepted : marked.objection = none)
    : ∃ owner returned, ConstructorIn sources marked owner returned := by
  obtain ⟨source, member, declaration, recorded⟩ := recordedIn_of_mem_ofAdditions among
  have form : declaration.isConstructor = true := by
    by_contra other
    obtain ⟨_, _, _, record⟩ := recorded
    obtain ⟨objection, objected⟩ := Declaration.objection_of_marked? record (by simpa using other)
    rw [Marked.atScope, accepted] at objected
    contradiction
  unfold Declaration.isConstructor at form
  split at form
  · rename_i home block attributes signature
    obtain ⟨owner, returned, constructs⟩ :=
      Signature.constructs_of_objection? (Option.isNone_iff_eq_none.mp form)
    exact ⟨owner, returned, source, member, home, block, attributes, signature, recorded, constructs⟩
  · contradiction

/-- The owner of a marked constructor is that of its block. -/
theorem ConstructorIn.owner_eq {sources : List SourceFile} {marked : Marked} {owner returned : TypePath}
    (declared : ConstructorIn sources marked owner returned)
    : marked.owner = some owner.spelled := by
  obtain ⟨source, _, home, block, attributes, signature, ⟨_, _, _, recorded⟩, constructs⟩ := declared
  have same : marked.owner = block.owner?.map TypePath.spelled :=
    congrArg Marked.owner (Option.some.inj recorded).symm
  rw [same, constructs.owned]
  rfl

-----------------------------------------------------------------------------------------
-- Paths of the owner
-----------------------------------------------------------------------------------------

variable {index : Index} {scope : Scope} {target : TypeName} {owner returned : SpelledPath}

/-- Ways to write the type of the owner in a scope: `Self`, the owner as the block has it, or a path from a
module of the crate that leads to the owner's declaration and that no import of the scope takes elsewhere.
-/
inductive NamesOwner (index : Index) (scope : Scope) (target : TypeName) (owner : SpelledPath)
    : SpelledPath → Prop
  | self : NamesOwner index scope target owner (.single "Self")
  | alike : NamesOwner index scope target owner owner
  | declared {first second text : String} {rest : List String} (inside : IsCrateModule target.home)
      (token : Identifier.isToken target.name = true)
      (plain : first ∈ SpelledPath.keywords ∨ scope.path? first = none)
      (leads : index.absolute? scope.home ⟨false, first :: second :: rest⟩ = some text)
      (inCrate : isInCrate text = true)
      (found : index.declaration? hopLimit text = some target.qualified)
    : NamesOwner index scope target owner ⟨false, first :: second :: rest⟩

/-- Only `Self` depends on the owner. -/
theorem resolve?_of_ne_self (apart : owner ≠ .single "Self") (other : Option TypeName)
    : index.resolve? scope other owner = index.resolve? scope none owner := by
  obtain ⟨rooted, segments⟩ := owner
  unfold resolve?
  cases rooted with
  | true => rfl
  | false =>
      rcases segments with _ | ⟨name, _ | ⟨second, rest⟩⟩
      · rfl
      · have ordinary : name ≠ "Self" := by
          rintro rfl
          exact apart rfl
        simp [resolveName?, ordinary]
      · rfl

/-- What names the owner leads to the type of the owner. -/
theorem resolve?_of_namesOwner (named : NamesOwner index scope target owner returned)
    (owned : index.resolve? scope none owner = some target)
    : index.resolve? scope (some target) returned = some target := by
  cases named with
  | self => rfl
  | alike =>
      have apart : owner ≠ .single "Self" := by
        rintro rfl
        contradiction
      rw [resolve?_of_ne_self apart, owned]
  | @declared first second text rest inside token plain leads inCrate found =>
      rw [resolve?_of_unbound plain]
      exact (answers_of_declaration? inside token inCrate found).qualified _ _ leads

-----------------------------------------------------------------------------------------
-- Types that constructors return
-----------------------------------------------------------------------------------------

/-- Each marked declaration that is not objected to is a constructor in one of the files, which returns a
path that ends in `Self` or as its owner does. Where the type of the owner is known, and the path names the
owner in the scope, it leads to just that type, for which the factory is generated.
-/
theorem ofAdditions_constructor_output (marker : String) {sources : List SourceFile} {marked : Marked}
    (among : marked ∈ (ofAdditions marker sources).marked) (accepted : marked.objection = none)
    : let index := ofAdditions marker sources
      (∃ owner returned, ConstructorIn sources marked owner returned)
        ∧ ∀ owner returned target,
            ConstructorIn sources marked owner returned
            → index.ownerType? marked = some target
            → ∃ scope,
                index.scopes[marked.scope]? = some scope
                  ∧ (NamesOwner index scope target owner.spelled returned.spelled
                    → index.resolve? scope (some target) returned.spelled = some target) := by
  intro index
  refine ⟨exists_constructorIn among accepted, fun owner returned target declared owned => ?_⟩
  obtain ⟨scope, path, opened, written, resolved⟩ := resolve?_of_ownerType? owned
  obtain rfl : owner.spelled = path := Option.some.inj (declared.owner_eq.symm.trans written)
  exact ⟨scope, opened, fun named => resolve?_of_namesOwner named resolved⟩

-----------------------------------------------------------------------------------------
-- Two files
-----------------------------------------------------------------------------------------

/-- What the functions of blocks are recorded as, their owners, and the paths that they return. -/
private def functionsOf (file : FilePath) (declarations : List Declaration)
    : List (Marked × TypePath × TypePath) :=
  declarations.filterMap fun declaration =>
    match declaration with
    | .blockMember home block (.function _ signature) =>
        match block.owner?, signature.returned? with
        | some owner, some returned =>
            some (.ofFunction file home block signature, owner, returned)
        | _, _ => none
    | _ => none

/-- A function that is recorded without an objection is a constructor in the file, with the owner and
the path that are listed for it. Without an objection its form is that of a constructor, which has an
owner and returns a path.
-/
private theorem constructorIn_of_mem {source : SourceFile} {items : List Item} {marked : Marked}
    {owner returned : TypePath} (read : Item.ofText? source.content = some items)
    (among
      : (marked.atScope 0, owner, returned)
        ∈ functionsOf source.path (Item.declarationsOf source.home items))
    (accepted : marked.objection = none)
    : ConstructorIn [source] marked owner returned := by
  obtain ⟨declaration, declared, found⟩ := List.mem_filterMap.mp among
  split at found
  · rename_i home block attributes signature
    split at found
    · rename_i own output owned returns
      obtain ⟨recorded, rfl, rfl⟩ : _ ∧ own = owner ∧ output = returned := by simpa using found
      have form : signature.objection? block.ofTrait (block.owner?.map TypePath.spelled) = none :=
        (congrArg Marked.objection recorded).trans accepted
      obtain ⟨first, second, constructs⟩ := Signature.constructs_of_objection? form
      obtain rfl : first = own := Option.some.inj (constructs.owned.symm.trans owned)
      obtain rfl : second = output := Option.some.inj (constructs.returns.symm.trans returns)
      exact ⟨source, List.mem_singleton_self _, home, block, attributes, signature,
        ⟨items, read, declared, congrArg some recorded⟩, constructs⟩
    · contradiction
  · contradiction

/-- What is recorded of a constructor on the first line of the root. -/
private def constructor : Marked where
  location := ⟨⟨"src/lib.rs"⟩, 1⟩
  home := "crate"
  scope := 0
  owner := some (.single "S")
  ownerIsGeneric := false
  name := "new"
  objection := none
  parameters := []

/-- The owner as its block has it. -/
private def ownerPath : TypePath :=
  ⟨false, [⟨"S", .none⟩]⟩

/-- The root of a crate. -/
private def rootFile (content : String) : SourceFile :=
  ⟨⟨"src/lib.rs"⟩, "crate", content⟩

/-- A file of one constructor, and the index of it. -/
private theorem ofAdditions_rootFile {content : String} {index : Index} {returned : TypePath}
    (known
      : (Item.ofText? content).map (fun items =>
          (functionsOf ⟨"src/lib.rs"⟩ (Item.declarationsOf "crate" items),
            addParsed { marker := "inject" } ⟨"src/lib.rs"⟩ "crate" items))
        = some ([(constructor, ownerPath, returned)], index))
    : ConstructorIn [rootFile content] constructor ownerPath returned
      ∧ ofAdditions "inject" [rootFile content] = index := by
  obtain ⟨items, read, both⟩ := Option.map_eq_some_iff.mp known
  obtain ⟨listed, rfl⟩ := Prod.mk.inj both
  have readFile : Item.ofText? (rootFile content).content = some items := read
  refine ⟨constructorIn_of_mem readFile ?_ rfl, ?_⟩
  · exact listed ▸ List.mem_singleton_self _
  · simp [ofAdditions, take, add, read, Reply.telling, Reply.done, rootFile]

/-- A constructor that returns `Self` returns the type of its owner. The file declares the owner, so
its type is known.
-/
theorem ofAdditions_constructor_output_self
    : let sources := [rootFile "struct S;impl S{#[inject]fn new()->Self{S}}"]
      let index := ofAdditions "inject" sources
      let target : TypeName := ⟨"crate", "S"⟩
      constructor ∈ index.marked
        ∧ constructor.objection = none
        ∧ ConstructorIn sources constructor ownerPath ⟨false, [⟨"Self", .none⟩]⟩
        ∧ index.ownerType? constructor = some target
        ∧ ∃ scope,
            index.scopes[constructor.scope]? = some scope
              ∧ index.resolve? scope (some target) (.single "Self") = some target := by
  intro sources index target
  have known : ConstructorIn sources constructor ownerPath ⟨false, [⟨"Self", .none⟩]⟩
      ∧ index = {
        marker := "inject"
        scopes := [⟨"crate", []⟩]
        declared := ["crate::S"]
        modules := ["crate"]
        marked := [constructor]
        files := [⟨"src/lib.rs"⟩]
      } :=
    ofAdditions_rootFile (by rw [Item.ofText?_ofList]; decide +kernel)
  obtain ⟨declared, same⟩ := known
  have among : constructor ∈ index.marked := by simp [same]
  have owned : index.ownerType? constructor = some target := by
    rw [same]
    decide +kernel
  have accepted : constructor.objection = none := rfl
  obtain ⟨_, each⟩ := ofAdditions_constructor_output "inject" among accepted
  obtain ⟨scope, opened, leads⟩ := each _ _ target declared owned
  exact ⟨among, rfl, declared, owned, scope, opened, leads .self⟩

/-- A constructor that returns a type of the same name in another module is accepted. Both types are
declared in the file, and the last segments agree.
-/
theorem ofAdditions_constructor_of_another
    : let sources :=
        [rootFile "mod m{pub struct S;}struct S;impl S{#[inject]fn new()->m::S{m::S}}"]
      let index := ofAdditions "inject" sources
      let returned : TypePath := ⟨false, [⟨"m", .none⟩, ⟨"S", .none⟩]⟩
      constructor ∈ index.marked
        ∧ constructor.objection = none
        ∧ ConstructorIn sources constructor ownerPath returned
        ∧ index.ownerType? constructor = some ⟨"crate", "S"⟩
        ∧ index.scopes[constructor.scope]? = some ⟨"crate", []⟩
        ∧ index.resolve? ⟨"crate", []⟩ (some ⟨"crate", "S"⟩) returned.spelled
          = some ⟨"crate::m", "S"⟩ := by
  intro sources index returned
  have known : ConstructorIn sources constructor ownerPath returned
      ∧ index = {
        marker := "inject"
        scopes := [⟨"crate", []⟩, ⟨"crate::m", []⟩]
        declared := ["crate::m::S", "crate::S"]
        modules := ["crate", "crate::m", "crate"]
        marked := [constructor]
        files := [⟨"src/lib.rs"⟩]
      } :=
    ofAdditions_rootFile (by rw [Item.ofText?_ofList]; decide +kernel)
  obtain ⟨declared, same⟩ := known
  rw [same]
  exact ⟨by simp, rfl, declared, by decide +kernel, rfl, by decide +kernel⟩

end Index

end Wiring
