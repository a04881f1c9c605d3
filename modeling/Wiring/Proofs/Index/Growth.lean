import Wiring.Generation.Run
import Wiring.Proofs.Emission.FactoryItems
import Wiring.Proofs.Text.Segments

/-! What factories bring into an index: one scope without imports, one declaration, and the module
that both stand in. They import nothing for others, and what carries the marker in them is no
constructor.
-/

namespace Wiring.Index

open Source Source.Grammar Emission

/-- The later index holds all that the earlier one does, and the factories. -/
structure Grown (factories : List Artifact) (before after : Index) : Prop where
  marker : after.marker = before.marker
  scopes : after.scopes = before.scopes ++ factories.map fun factory => ⟨factory.home, []⟩
  declared : after.declared = before.declared ++ factories.map Artifact.qualifiedName
  modules
    : after.modules
      = before.modules ++ factories.flatMap fun factory => lineage factory.home.length factory.home
  reexports : after.reexports = before.reexports
  marked
    : ∃ more,
        after.marked = before.marked ++ more ∧ ∀ marked ∈ more, marked.objection.isSome = true

namespace Grown

variable {factories others : List Artifact} {before middle after : Index}

/-- No factories, no growth. -/
theorem refl (index : Index) : Grown [] index index where
  marker := rfl
  scopes := by simp
  declared := by simp
  modules := by simp
  reexports := rfl
  marked := ⟨[], by simp⟩

/-- Growth composes: what each part adds stands behind what was there. -/
theorem trans (first : Grown factories before middle) (second : Grown others middle after)
    : Grown (factories ++ others) before after where
  marker := second.marker.trans first.marker
  scopes := by simp [second.scopes, first.scopes]
  declared := by simp [second.declared, first.declared]
  modules := by simp [second.modules, first.modules]
  reexports := second.reexports.trans first.reexports
  marked := by
    obtain ⟨more, grown, objected⟩ := first.marked
    obtain ⟨further, grownMore, objectedMore⟩ := second.marked
    refine ⟨more ++ further, by simp [grownMore, grown], ?_⟩
    intro marked member
    rcases List.mem_append.mp member with member | member
    · exact objected marked member
    · exact objectedMore marked member

end Grown

/-- What is marked on a type is objected to. -/
theorem grown_markOther (index : Index) (file : FilePath) (home : String) (scope : Nat)
    (what : String) (attributes : List Attribute) (name : String) (line : Nat)
    : Grown [] index (index.markOther file home scope what attributes name line) := by
  unfold markOther
  split
  · exact ⟨rfl, by simp [mark], by simp [mark], by simp [mark], rfl, ⟨_, rfl, by simp⟩⟩
  · exact .refl index

/-- The members of a block that carry no attribute are passed over. -/
theorem foldl_addMember_plain (file : FilePath) (home : String) (scope : Nat) (block : ImplBlock)
    (index : Index) (signature : Signature)
    : [Member.function [] signature].foldl (addMember file home scope block) index = index := by
  simp [addMember, isMarkedFunction, carries]

/-- The items of a factory, added to an index. The type is declared, and what its function and its
block mark is objected to.
-/
theorem grown_addParsed (index : Index) (file : FilePath) (artifact : Artifact)
    (owner : TypePath) (signature : Signature)
    : Grown [artifact] index
        (index.addParsed file artifact.home
          [.type [derives] .struct artifact.name 2,
            .implementation [] ⟨false, false, some owner, [.function [] signature]⟩]) := by
  have declares : Item.isTestOnly (.type [derives] .struct artifact.name 2) = false := by
    simp [Item.isTestOnly, Item.gate, Item.attributes, isTestOnly, Condition.ofAttribute?, derives,
      Attribute.isNamed]
  have implements
      : Item.isTestOnly (.implementation [] ⟨false, false, some owner, [.function [] signature]⟩) = false :=
    rfl
  have imports : Scope.ofItems artifact.home
          [.type [derives] .struct artifact.name 2,
            .implementation [] ⟨false, false, some owner, [.function [] signature]⟩] = ⟨artifact.home, []⟩ := by
    simp [Scope.ofItems, Import.ofItem]
  let items : List Item :=
    [.type [derives] .struct artifact.name 2,
      .implementation [] ⟨false, false, some owner, [.function [] signature]⟩]
  let opened := (index.registerModule artifact.home).openScope artifact.home items
  have grown : Grown [artifact] index (opened.declare artifact.home artifact.name) := by
    refine ⟨rfl, ?_, rfl, by simp [opened, registerModule, openScope, declare], rfl, [], ?_⟩
    · simp [opened, items, registerModule, openScope, declare, imports]
    · simp [opened, registerModule, openScope, declare]
  have marked :=
    grown.trans (grown_markOther _ file artifact.home (index.registerModule artifact.home).scopes.length
      TypeKind.struct.text [derives] artifact.name 2)
  simp only [addParsed, addItems, addItem, declares, implements, Bool.false_eq_true, if_false,
    foldl_addMember_plain]
  exact ⟨marked.marker, marked.scopes, marked.declared, marked.modules, marked.reexports, marked.marked⟩

/-- A factory is in the module of its target. -/
theorem home_of_factory? {injectable : Injectable} {factory : Artifact}
    (made : factory? injectable = some factory)
    : factory.home = injectable.target.home := by
  obtain ⟨_, _, _, _, _, _, _, _, rfl⟩ := factory?_eq_some_iff.mp made
  rfl

/-- Its name is that of the target with the ending for factories. -/
theorem name_of_factory? {injectable : Injectable} {factory : Artifact}
    (made : factory? injectable = some factory)
    : factory.name = injectable.factoryName := by
  obtain ⟨_, _, _, _, _, _, _, _, rfl⟩ := factory?_eq_some_iff.mp made
  rfl

/-- It is a factory. -/
theorem kind_of_factory? {injectable : Injectable} {factory : Artifact}
    (made : factory? injectable = some factory)
    : factory.kind = .factory := by
  obtain ⟨_, _, _, _, _, _, _, _, rfl⟩ := factory?_eq_some_iff.mp made
  rfl

/-- So its qualified name is known from the descriptor alone. -/
theorem qualifiedName_of_factory? {injectable : Injectable} {factory : Artifact}
    (made : factory? injectable = some factory)
    : factory.qualifiedName = Segments.within injectable.target.home injectable.factoryName := by
  obtain ⟨_, _, _, _, _, _, _, _, rfl⟩ := factory?_eq_some_iff.mp made
  rfl

/-- The factory of an injectable is isolating: its one source is the file of the constructor. -/
theorem origins_of_factory? {injectable : Injectable} {artifact : Artifact}
    (made : factory? injectable = some artifact)
    : artifact.origins = ⟨false, [injectable.location.file]⟩ := by
  obtain ⟨_, _, _, _, _, _, _, _, rfl⟩ := factory?_eq_some_iff.mp made
  rfl

/-- A factory is only made where its name is an identifier. -/
theorem isToken_factoryName {injectable : Injectable} {artifact : Artifact}
    (made : factory? injectable = some artifact)
    : Source.Identifier.isToken injectable.factoryName = true := by
  obtain ⟨_, _, _, _, word, _⟩ := factory?_eq_some_iff.mp made
  exact (word?_eq_some word).2

/-- The factory of a type is the only one of its qualified name. -/
theorem target_eq_of_qualifiedName_eq {injectable other : Injectable}
    {factory otherFactory : Artifact} (made : factory? injectable = some factory)
    (otherMade : factory? other = some otherFactory)
    (same : otherFactory.qualifiedName = factory.qualifiedName)
    : other.target = injectable.target := by
  have name : Segments.IsSingle injectable.factoryName :=
    Segments.isSingle_of_isToken (isToken_factoryName made)
  have otherName : Segments.IsSingle other.factoryName :=
    Segments.isSingle_of_isToken (isToken_factoryName otherMade)
  rw [qualifiedName_of_factory? made, qualifiedName_of_factory? otherMade] at same
  obtain ⟨home, named⟩ := Segments.within_inj otherName name same
  have bare : other.target.name = injectable.target.name := String.append_left_inj _ |>.mp named
  calc
    other.target
    _ = ⟨other.target.home, other.target.name⟩ := rfl
    _ = ⟨injectable.target.home, injectable.target.name⟩ := by rw [home, bare]

/-- The source of a factory is added as the items that its tokens are read as. -/
theorem add_factory (index : Index) {injectable : Injectable} {factory : Artifact}
    {items : List Item} (made : factory? injectable = some factory)
    (read : items? (factoryTokens injectable) = some items)
    : index.add factory.source
      = .ok (index.addParsed factory.source.path factory.source.home items) := by
  rw [add, Artifact.source, ofText?_factory made, read]

/-- Adding the source of a factory brings in the factory. -/
theorem grown_add {injectable : Injectable} {factory : Artifact} {index after : Index}
    (made : factory? injectable = some factory) (added : index.add factory.source = .ok after)
    : Grown [factory] index after := by
  unfold add at added
  split at added
  · rename_i items read
    rw [Artifact.source, ofText?_factory made] at read
    obtain ⟨signature, rfl⟩ := items?_factoryTokens read
    obtain rfl := Except.ok.inj added
    rw [← name_of_factory? made]
    exact grown_addParsed index _ factory _ signature
  · contradiction

/-- An index grows by all of the factories that it takes, by induction on them. -/
theorem grown_takeEach {injectables : List Injectable} {factories : List Artifact} {index : Index}
    (made : List.Forall₂ (fun injectable factory => factory? injectable = some factory) injectables factories)
    (taken : (index.takeEach (factories.map Artifact.source)).result = .ok ())
    : Grown factories index (index.takeEach (factories.map Artifact.source)).state := by
  induction made generalizing index with
  | nil => exact .refl index
  | @cons injectable factory _ factories first _ ih =>
      simp only [List.map_cons, takeEach, take] at taken ⊢
      cases added : index.add factory.source with
      | error failure => simp [added, Reply.andThen, Reply.failed] at taken
      | ok next =>
          simp only [added, Reply.andThen, Reply.telling, Reply.done] at taken ⊢
          exact (grown_add first added).trans (ih taken)

/-- Sources that are all added can all be read, by induction on them. -/
theorem read_of_takeEach {index : Index} {sources : List SourceFile}
    (taken : (index.takeEach sources).result = .ok ())
    : ∀ source ∈ sources, (Item.ofText? source.content).isSome = true := by
  induction sources generalizing index with
  | nil => simp
  | cons source rest ih =>
      simp only [takeEach, take] at taken
      cases added : index.add source with
      | error failure => simp [added, Reply.andThen, Reply.failed] at taken
      | ok next =>
          simp only [added, Reply.andThen, Reply.telling, Reply.done] at taken
          refine List.forall_mem_cons.mpr ⟨?_, ih taken⟩
          unfold add at added
          split at added
          · rename_i items read
            rw [read]
            rfl
          · contradiction

/-- The index with factories added as sources. One that is no source text adds nothing. -/
def withFactories (index : Index) (factories : List Artifact) : Index :=
  factories.foldl (fun index factory => (index.take factory.source).state) index

/-- The factories that can be read are brought in, by induction on the factories. -/
theorem grown_withFactories (index : Index) {injectables : List Injectable}
    {factories : List Artifact}
    (made
      : List.Forall₂ (fun injectable factory => factory? injectable = some factory) injectables
          factories)
    : Grown (factories.filter fun factory => (Item.ofText? factory.content).isSome) index
        (index.withFactories factories) := by
  induction made generalizing index with
  | nil => exact .refl index
  | @cons injectable factory _ rest first _ ih =>
      rw [withFactories, List.foldl_cons]
      cases read : Item.ofText? factory.content with
      | none =>
          have kept : (index.take factory.source).state = index := by
            simp [take, add, Artifact.source, read, Reply.failed]
          rw [List.filter_cons_of_neg (by simp [read]), kept]
          exact ih index
      | some items =>
          have added : index.add factory.source
              = .ok (index.addParsed factory.source.path factory.source.home items) := by
            simp [add, Artifact.source, read]
          have taken : (index.take factory.source).state
              = index.addParsed factory.source.path factory.source.home items := by
            simp [take, added, Reply.telling, Reply.done]
          rw [List.filter_cons_of_pos (by simp [read]), taken]
          exact (grown_add first added).trans (ih _)

end Wiring.Index
