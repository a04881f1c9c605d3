import Wiring.Proofs.Emission.Agreement
import Wiring.Proofs.Generation.Offers
import Wiring.Proofs.Store.OwnFiles

/-! The files of a run. Factories of different types have different names, so two artifacts of a run
can meet in one file in two ways only. Either their names differ and the store refuses the second one;
or the component has been given the name of a factory and takes its place.
-/

namespace Wiring

open Source Segments

-----------------------------------------------------------------------------------------
-- Names
-----------------------------------------------------------------------------------------

/-- A factory goes down the directories of its module, which are identifiers like its name. -/
theorem Emission.isNamed_of_factory? {injectable : Injectable} {factory : Artifact}
    (made : factory? injectable = some factory)
    : factory.IsNamed := by
  have token := Index.isToken_factoryName made
  have single : IsSingle injectable.target.name := by
    have whole : IsSingle (injectable.target.name ++ "Factory") := isSingle_of_isToken token
    intro member
    exact whole (by simp [member])
  have words : IsPath (dropLeading (within injectable.target.home injectable.target.name)) := by
    obtain ⟨_, _, _, _, _, path, _⟩ := factory?_eq_some_iff.mp made
    simp only [typePath?, path?, Option.bind_eq_bind, Option.bind_eq_some_iff] at path
    obtain ⟨_, each, _⟩ := path
    exact (words_eq_of_mapM_word? each).2
  refine ⟨fun segment member => ?_, ?_⟩
  · rw [Index.home_of_factory? made, Artifact.directories] at member
    obtain ⟨inHome, kept⟩ := List.mem_filter.mp member
    have named : segment ≠ "" := by
      simp only [ne_eq, Bool.and_eq_true, decide_eq_true_eq] at kept
      exact kept.1
    exact (isToken_of_mem_split single words segment inHome).resolve_left named
  · rw [Index.name_of_factory? made]
    exact token

/-- The factories of a generation have different names, since their types differ. -/
theorem Generation.HasMade.nodup {generation : Generation} {factories : List Artifact}
    (made : generation.HasMade factories)
    : (factories.map Artifact.qualifiedName).Nodup := by
  obtain ⟨recorded, same, pairs⟩ := made.made
  have distinct : (recorded.map Injectable.target).Nodup :=
    (same.map Injectable.target).nodup_iff.mpr (Ascending.nodup_map made.ascending)
  clear same made
  induction pairs with
  | nil => exact .nil
  | @cons injectable factory injectables factories first others ih =>
      obtain ⟨apart, distinct⟩ := List.nodup_cons.mp distinct
      refine List.nodup_cons.mpr ⟨fun member => ?_, ih distinct⟩
      obtain ⟨otherFactory, among, sameName⟩ := List.mem_map.mp member
      obtain ⟨other, recorded, otherMade⟩ := exists_of_forall₂ others.flip among
      exact apart (List.mem_map.mpr
        ⟨other, recorded, Index.target_eq_of_qualifiedName_eq first otherMade sameName⟩)

/-- The settings name a directory at each step of the way to the component, and then a file. -/
structure Settings.PlacesComponent (settings : Settings) : Prop where
  home : ∀ segment ∈ Artifact.directories settings.componentNamespace, FilePath.IsSegment segment
  name : '/' ∉ settings.componentName.toList

/-- So they do where the namespace is a path and the name an identifier, both as they are written. -/
theorem Settings.placesComponent_of_isPath {settings : Settings}
    (path : IsPath settings.componentNamespace)
    (token : Identifier.isToken settings.componentName = true)
    : settings.PlacesComponent where
  home segment member :=
    Identifier.isSegment_of_isToken (path segment (List.mem_filter.mp member).1)
  name := (Identifier.isSegment_of_isToken token).noSlash

namespace Emission

variable {settings : Settings} {injectables : List Injectable} {made : Artifact}

/-- The settings say what the component is called. -/
theorem eq_of_component (succeeds : component settings injectables = .ok made)
    : made.home = settings.componentNamespace
      ∧ made.name = settings.componentName
      ∧ made.kind = .component := by
  obtain ⟨_, _, _, _, _, _, rfl⟩ := component_eq_ok succeeds
  exact ⟨rfl, rfl, rfl⟩

/-- A component goes down where its place does. -/
theorem goesDown_of_component (places : settings.PlacesComponent)
    (succeeds : component settings injectables = .ok made)
    : made.GoesDown := by
  obtain ⟨home, name, _⟩ := eq_of_component succeeds
  refine ⟨?_, Artifact.isSegment_fileName ?_⟩
  · rw [home]
    exact places.home
  · rw [name]
    exact places.name

end Emission

namespace Workplace

variable {settings : Settings} {index : Index}

/-- All that a run offers goes down from the directory of the store. -/
theorem goesDown_of_mem_offered (places : settings.PlacesComponent)
    : ∀ artifact ∈ offered settings index, artifact.GoesDown := by
  obtain ⟨generation, component?, same, made, ends⟩ := offered_eq settings index
  intro artifact member
  rw [same] at member
  rcases List.mem_append.mp member with factory | component
  · obtain ⟨_, _, pairs⟩ := made.made
    obtain ⟨injectable, _, made⟩ := exists_of_forall₂ pairs.flip factory
    exact (Emission.isNamed_of_factory? made).goesDown
  · exact Emission.goesDown_of_component places (ends artifact (by simpa using component))

/-- No factory of a run has the name that the settings give to the component. -/
def SparesFactories (settings : Settings) (index : Index) : Prop :=
  ∀ factory ∈ offered settings index,
    factory.kind = .factory
    → factory.qualifiedName ≠ within settings.componentNamespace settings.componentName

/-- Then all artifacts of the run have different names. -/
theorem SparesFactories.nodup (spares : SparesFactories settings index)
    : ((offered settings index).map Artifact.qualifiedName).Nodup := by
  obtain ⟨generation, component?, same, made, ends⟩ := offered_eq settings index
  rw [same, List.map_append]
  refine List.nodup_append.mpr ⟨made.nodup, by cases component? <;> simp, ?_⟩
  rintro _ inFront _ behind rfl
  obtain ⟨factory, among, name⟩ := List.mem_map.mp inFront
  obtain ⟨component, last, sameName⟩ := List.mem_map.mp behind
  obtain ⟨home, named, _⟩ := Emission.eq_of_component (ends component (by simpa using last))
  obtain ⟨_, _, pairs⟩ := made.made
  obtain ⟨injectable, _, made⟩ := exists_of_forall₂ pairs.flip among
  have offers : factory ∈ offered settings index := by
    rw [same]
    exact List.mem_append_left _ among
  refine spares factory offers (Index.kind_of_factory? made) ?_
  rw [name, ← sameName, Artifact.qualifiedName, home, named]

/-- The component is no factory, so it is enough to look at what the rounds offer. -/
theorem sparesFactories_of_offeredFactories
    (spares
      : ∀ factory ∈ offeredFactories settings index,
          factory.qualifiedName ≠ within settings.componentNamespace settings.componentName)
    : SparesFactories settings index := by
  obtain ⟨_, component?, same, _, ends⟩ := offered_eq settings index
  intro factory member isFactory
  rw [same] at member
  rcases List.mem_append.mp member with inRounds | last
  · exact spares factory inRounds
  · obtain ⟨_, _, kind⟩ := Emission.eq_of_component (ends factory (by simpa using last))
    rw [kind] at isFactory
    contradiction

/-- Where the component is offered, no factory has its name if all names differ. -/
theorem sparesFactories_of_nodup {factories : List Artifact} {component : Artifact}
    {injectables : List Injectable} (offers : offered settings index = factories ++ [component])
    (made : Emission.component settings injectables = .ok component)
    (distinct : ((offered settings index).map Artifact.qualifiedName).Nodup)
    : SparesFactories settings index := by
  obtain ⟨home, named, kind⟩ := Emission.eq_of_component made
  intro factory member isFactory sameName
  have last : component ∈ offered settings index := by simp [offers]
  have same : factory = component := by
    refine List.inj_on_of_nodup_map distinct member last ?_
    rw [sameName, Artifact.qualifiedName, home, named]
  rw [same, kind] at isFactory
  contradiction

end Workplace

-----------------------------------------------------------------------------------------
-- Artifacts that were written
-----------------------------------------------------------------------------------------

/-- What has been written was taken, artifact by artifact. -/
theorem Written.takes {σ : Type} {write : Writer σ} {store after : σ} {artifacts : List Artifact}
    (written : Written write store artifacts after)
    : write.Takes store artifacts after := by
  induction written with
  | none => exact .nil
  | first taken _ ih => exact .cons taken ih

-----------------------------------------------------------------------------------------
-- Runs
-----------------------------------------------------------------------------------------

namespace Workplace

open DirectoryStore

variable {settings : Settings} {index : Index} {root : FilePath} {tree : FileTree}
  {store : DirectoryStore} {reply : Reply (Workplace (DirectoryStore × FileTree)) Summary}

/-- A run in a directory takes all that is offered, or fails over one of the artifacts. It keeps pace
with a run that keeps everything, whose store lists what is offered.
-/
theorem takes_or_stops
    (ran
      : run DirectoryStore.write ⟨{ settings }, index, (store, (openAt root tree).state)⟩ = reply)
    : (DirectoryStore.write.Takes (store, (openAt root tree).state) (offered settings index)
            reply.state.store
          ∧ reply.state.generation
            = (run Writer.keeping ⟨{ settings }, index, []⟩).state.generation
          ∧ reply.result = (run Writer.keeping ⟨{ settings }, index, []⟩).result)
      ∨ ∃ failure,
          StopsIn DirectoryStore.write (store, (openAt root tree).state) (offered settings index)
            failure
          ∧ reply.result = .error failure := by
  have pace
      : KeepsPace DirectoryStore.write around around [] (store, (openAt root tree).state)
          (run Writer.keeping ⟨{ settings }, index, []⟩)
          (run DirectoryStore.write ⟨{ settings }, index, (store, (openAt root tree).state)⟩) :=
    keepsPace_run ({ settings }, index) [] (store, (openAt root tree).state)
  rw [ran] at pace
  obtain ⟨rest, artifacts, state, goesOn⟩ := pace
  obtain rfl : offered settings index = artifacts := congrArg Workplace.store state
  refine goesOn.imp_left ?_
  rintro ⟨after, taken, stateOther, result⟩
  rw [state, stateOther]
  exact ⟨taken.takes, rfl, result⟩

/-- A store that takes artifacts in a directory without a manifest has them on record, and nothing to
remove.
-/
theorem records_of_takes {artifacts : List Artifact} {last : DirectoryStore} {left : FileTree}
    (absent : (tree.ensureDirectory root).1.readText (manifestPath root) = .error .absent)
    (opened : (openAt root tree).result = .ok store)
    (down : ∀ artifact ∈ artifacts, artifact.GoesDown)
    (takes : DirectoryStore.write.Takes (store, (openAt root tree).state) artifacts (last, left))
    : last.root = root ∧ last.previous = {} ∧ ∃ base, Records base artifacts (last, left) := by
  obtain ⟨base, empty⟩ := records_of_openAt opened
  obtain ⟨sameRoot, samePrevious⟩ := eq_of_takes takes
  refine ⟨?_, samePrevious.trans ((LeftByRuns.nothing absent).previous_eq opened), base,
    empty.takes down takes⟩
  obtain ⟨_, _, _, _, rfl⟩ := openAt_eq_ok opened
  exact sameRoot

/-- Why a run fails over its artifacts: two of them are meant for one file, or the directory gives up. -/
def FailsOver (artifacts : List Artifact) (failure : Failure) : Prop :=
  (∃ first ∈ artifacts,
      ∃ second ∈ artifacts,
        first.relativePath.same second.relativePath = true
        ∧ failure = .clash second.relativePath first.qualifiedName second.qualifiedName)
  ∨ ∃ path, failure = .inputOutput path

/-- A directory that stops does so over two artifacts in one file, or over a file itself; the records
of what was taken say which.
-/
theorem failsOver_of_stopsIn {artifacts : List Artifact} {failure : Failure}
    (absent : (tree.ensureDirectory root).1.readText (manifestPath root) = .error .absent)
    (opened : (openAt root tree).result = .ok store)
    (down : ∀ artifact ∈ artifacts, artifact.GoesDown)
    (stops : StopsIn DirectoryStore.write (store, (openAt root tree).state) artifacts failure)
    : FailsOver artifacts failure := by
  obtain ⟨front, second, ⟨middle, grown⟩, included, taken, refused⟩ := stops
  have among : ∀ artifact ∈ front ++ [second], artifact ∈ artifacts :=
    fun _ member => included.subset member
  have downFront : ∀ artifact ∈ front, artifact.GoesDown :=
    fun artifact member => down artifact (among artifact (List.mem_append_left _ member))
  obtain ⟨_, _, base, records⟩ := records_of_takes absent opened downFront taken.takes
  refine (write_eq_error refused).imp_left ?_
  rintro ⟨name, entry, recorded, _, same, rfl⟩
  obtain ⟨first, isLast, rfl, rfl⟩ := (records.recorded name entry).mp recorded
  rw [ManifestEntry.path_ofArtifact] at same
  exact ⟨first, among first (by simp [isLast.mem]), second, among second (by simp), same, rfl⟩

/-- What a run leaves in a directory without a manifest, where the settings place the component
properly. If it succeeds, it has recorded as many artifacts as there are injectables and one more just
where no factory has the name of the component. Then these are the factories and the component, and
each has a file of its own. In that case, whatever else becomes of the run, two artifacts that it
offers for one file make it fail, over a clash unless the directory gives up before. What is taken is
recorded name by name, and names that all differ have files of their own unless two of them meet in
one.
-/
theorem run_leaves_distinct_files (places : settings.PlacesComponent)
    (absent : (tree.ensureDirectory root).1.readText (manifestPath root) = .error .absent)
    (opened : (openAt root tree).result = .ok store)
    (ran
      : run DirectoryStore.write ⟨{ settings }, index, (store, (openAt root tree).state)⟩ = reply)
    : (∀ summary manifest,
        reply.result = .ok summary
        → (reply.state.store.1.finish reply.state.store.2).result = .ok manifest
        → (manifest.artifacts.entries.length = summary.injectables + 1
            ↔ SparesFactories settings index)
          ∧ (SparesFactories settings index
            → ∃ injectables factories component,
                injectables.Perm reply.state.generation.injectables
                ∧ List.Forall₂ (fun injectable factory => Emission.factory? injectable = some factory)
                    injectables factories
                ∧ Emission.component settings reply.state.generation.injectables = .ok component
                ∧ HoldsEach root manifest (reply.state.store.1.finish reply.state.store.2).state
                    (factories ++ [component])))
      ∧ (SparesFactories settings index
        → ∀ earlier later,
            [earlier, later].Sublist (offered settings index)
            → earlier.relativePath.same later.relativePath = true
            → ∃ failure,
                reply.result = .error failure ∧ FailsOver (offered settings index) failure) := by
  have down : ∀ artifact ∈ offered settings index, artifact.GoesDown :=
    goesDown_of_mem_offered places
  have outcome := takes_or_stops ran
  rcases reply with ⟨⟨generation, _, last, left⟩, _, answer⟩
  dsimp only at outcome ⊢
  constructor
  · intro summary manifest done finished
    subst done
    obtain ⟨takes, same, result⟩ := outcome.resolve_right (by simp)
    obtain ⟨below, fresh, base, records⟩ := records_of_takes absent opened down takes
    obtain ⟨turns, component, completes, made, offers, number⟩ := offered_of_ok result.symm
    rw [← same] at completes made
    have current : manifest = last.current := (clears_of_finish finished).1
    constructor
    · rw [current, ← number, records.length_eq_iff]
      exact ⟨sparesFactories_of_nodup offers made, SparesFactories.nodup⟩
    · intro spares
      refine ⟨_, _, component, completes.kept.injectables.symm, completes.made, made, ?_⟩
      rw [← offers, ← below]
      exact records.holdsEach_of_finish spares.nodup fresh finished
  · intro spares earlier later both samePath
    rcases outcome with ⟨takes, _⟩ | ⟨failure, stops, failed⟩
    · -- Had the store taken both, each of them would have a file of its own.
      obtain ⟨_, _, base, records⟩ := records_of_takes absent opened down takes
      have differs : earlier.qualifiedName ≠ later.qualifiedName := by
        simpa using spares.nodup.sublist (both.map Artifact.qualifiedName)
      have first : earlier ∈ offered settings index := both.subset (by simp)
      have second : later ∈ offered settings index := both.subset (by simp)
      refine absurd ?_ (records.apart earlier later ?_ ?_ differs)
      · exact (down earlier first).pathNames_eq (down later second) samePath
      · exact (lastOfItsName_of_nodup spares.nodup).mpr first
      · exact (lastOfItsName_of_nodup spares.nodup).mpr second
    · exact ⟨failure, failed, failsOver_of_stopsIn absent opened down stops⟩

-- Runs into the empty directory `out`. A client gets along with the component as long as the settings
-- do not give it the name of the client's factory.

/-- The store for `out`, and the tree around it. -/
def emptyOut : DirectoryStore × FileTree :=
  (storeOfOut, (openAt ⟨"out"⟩ {}).state)

/-- A run into an empty directory. -/
def intoOut (settings : Settings) (index : Index)
    : Reply (Workplace (DirectoryStore × FileTree)) Summary :=
  run DirectoryStore.write ⟨{ settings }, index, emptyOut⟩

/-- A file that declares a client and its constructor. -/
def clientSource : SourceFile :=
  ⟨⟨"src/net.rs"⟩, "crate::net", "struct Client;impl Client{#[inject]fn new()->Self{loop{}}}"⟩

/-- What stands in that file. -/
def clientIndex : Index := {
  marker := "inject"
  scopes := [⟨"crate::net", []⟩]
  declared := ["crate::net::Client"]
  modules := ["crate::net", "crate"]
  marked := [
    { constructorOf "Client" [] 1 with location := ⟨⟨"src/net.rs"⟩, 1⟩, home := "crate::net" }
  ]
  files := [⟨"src/net.rs"⟩]
}

/-- What one round leaves of it. -/
def clientRecorded (settings : Settings) : Generation := {
  settings
  injectables := [⟨⟨"crate::net", "Client"⟩, "new", [], ⟨⟨"src/net.rs"⟩, 1⟩⟩]
  processed := ["src/net.rs:1#Client::new"]
  rounds := 1
}

/-- Its first round. -/
def afterRound (settings : Settings) : Reply (Workplace (DirectoryStore × FileTree)) Round :=
  Workplace.round DirectoryStore.write ⟨{ settings }, clientIndex, emptyOut⟩

/-- The row of the client in a table of the given name. -/
def clientRows (dispatch : String) : List Emission.ComponentRow :=
  (Emission.rows? ":: tinydi" dispatch (clientRecorded {}).injectables).getD []

/-- The component of the client alone. -/
def clientComponent (settings : Settings) : Artifact where
  home := settings.componentNamespace
  name := settings.componentName
  kind := .component
  content :=
    Emission.render
      (Emission.componentCode ":: tinydi" settings.componentName
        (Emission.bareName settings.componentName ++ "Dispatch")
        (clientRows (Emission.bareName settings.componentName ++ "Dispatch")))
  origins := ⟨true, Emission.declaringFiles (clientRecorded settings).injectables⟩

/-- The component is given the name of the client's factory. -/
def namedLikeFactory : Settings where
  componentNamespace := "crate::net"
  componentName := "ClientFactory"

/-- What a run over the client leaves in the end. -/
def clientOut (settings : Settings) : DirectoryStore × FileTree :=
  (DirectoryStore.write (afterRound settings).state.store (clientComponent settings)).state

/-- One round does all there is to do, the component is taken after it, and the store finishes. -/
theorem course_clientIndex
    : ∀ settings ∈ [{}, namedLikeFactory],
        (afterRound settings).result.toOption.map Round.deferred = some []
        ∧ (afterRound settings).state.generation = clientRecorded settings
        ∧ (DirectoryStore.write (afterRound settings).state.store
              (clientComponent settings)).result.toOption
            = some ()
        ∧ (clientRecorded settings).obstacle? = none
        ∧ ((clientOut settings).1.finish (clientOut settings).2).result.toOption.isSome = true
        ∧ (settings = namedLikeFactory
          → (clientOut settings).1.current.artifacts.entries.length = 1) := by
  decide +kernel

/-- Under either name of the component the run succeeds, and leaves the same store but for the
component.
-/
theorem intoOut_clientIndex
    : ∀ settings ∈ [{}, namedLikeFactory],
        (intoOut settings clientIndex).result
            = .ok ((clientRecorded settings).summary (clientComponent settings))
          ∧ (intoOut settings clientIndex).state.store = clientOut settings := by
  have names
      : ∀ settings ∈ [{}, namedLikeFactory],
          readPath? settings.runtimePath = some ":: tinydi"
          ∧ readIdentifier? settings.componentName = some settings.componentName
          ∧ Emission.rows? ":: tinydi" (Emission.bareName settings.componentName ++ "Dispatch")
              (clientRecorded settings).injectables
            = some (clientRows (Emission.bareName settings.componentName ++ "Dispatch")) := by
    decide +kernel
  intro settings among
  obtain ⟨settled, state, taken, free, _⟩ := course_clientIndex settings among
  obtain ⟨path, name, rows⟩ := names settings among
  have made
      : Emission.component (clientRecorded settings).settings (clientRecorded settings).injectables
        = .ok (clientComponent settings) :=
    Emission.component_of_ascending (List.pairwise_singleton _ _) path name rows
  obtain ⟨result, _, kept⟩ :=
    run_eq_ok_of_settled settled state free made (eq_ok_of_toOption_eq_some taken)
  exact ⟨result, kept⟩

/-- The store finishes after it. -/
theorem finish_clientOut (settings : Settings) (among : settings ∈ [{}, namedLikeFactory])
    : ∃ manifest, ((clientOut settings).1.finish (clientOut settings).2).result = .ok manifest := by
  obtain ⟨_, _, _, _, finished, _⟩ := course_clientIndex settings among
  obtain ⟨manifest, finished⟩ := Option.isSome_iff_exists.mp finished
  exact ⟨manifest, eq_ok_of_toOption_eq_some finished⟩

/-- Two types whose factories have one name in small letters. -/
def twoSpellings : Index := {
  marker := "inject"
  scopes := [⟨"crate::m", []⟩]
  declared := ["crate::m::HTTPClient", "crate::m::HttpClient"]
  modules := ["crate::m", "crate"]
  marked := [constructorOf "HTTPClient" [] 3, constructorOf "HttpClient" [] 6]
  files := [⟨"src/m.rs"⟩]
}

/-- Two spellings of one name are two factories, neither named as the component, in one file. -/
theorem offeredFactories_twoSpellings
    : (∀ factory ∈ offeredFactories {} twoSpellings,
          factory.qualifiedName
            ≠ within (({} : Settings).componentNamespace) (({} : Settings).componentName))
      ∧ (offeredFactories {} twoSpellings).length = 2
      ∧ (offeredFactories {} twoSpellings).Pairwise fun earlier later =>
          earlier.relativePath.same later.relativePath = true := by
  decide +kernel

/-- A client and the component have a file each, and two clients that would share one are refused. Both
directories are empty, so no manifest is there.
-/
theorem run_leaves_distinct_files_clients
    : (∃ summary manifest,
        (intoOut {} clientIndex).result = .ok summary
        ∧ ((clientOut {}).1.finish (clientOut {}).2).result = .ok manifest
        ∧ manifest.artifacts.entries.length = summary.injectables + 1)
      ∧ ∃ failure,
          (intoOut {} twoSpellings).result = .error failure
          ∧ FailsOver (offered {} twoSpellings) failure := by
  have places : Settings.PlacesComponent {} :=
    Settings.placesComponent_of_isPath (by decide +kernel) (by decide +kernel)
  have absent
      : (FileTree.ensureDirectory {} ⟨"out"⟩).1.readText (manifestPath ⟨"out"⟩) = .error .absent := by
    rfl
  have ran (index : Index)
      : run DirectoryStore.write
          ⟨{ settings := {} }, index, (storeOfOut, (openAt ⟨"out"⟩ {}).state)⟩
        = intoOut {} index :=
    rfl
  constructor
  · obtain ⟨done, kept⟩ := intoOut_clientIndex {} (by simp)
    obtain ⟨manifest, finished⟩ := finish_clientOut {} (by simp)
    have spares : SparesFactories {} clientIndex :=
      sparesFactories_of_offeredFactories (by decide +kernel)
    have left := (run_leaves_distinct_files places absent openAt_out (ran clientIndex)).1
    rw [kept] at left
    exact ⟨_, _, done, finished, (left _ _ done finished).1.mpr spares⟩
  · obtain ⟨apart, shared⟩ := offeredFactories_twoSpellings
    have spares : SparesFactories {} twoSpellings := sparesFactories_of_offeredFactories apart
    obtain ⟨_, _, same, _⟩ := offered_eq {} twoSpellings
    generalize offeredFactories {} twoSpellings = factories at shared same
    obtain ⟨earlier, later, rfl⟩ := List.length_eq_two.mp shared.1
    have both : [earlier, later].Sublist (offered {} twoSpellings) := by
      rw [same]
      exact List.sublist_append_left _ _
    exact (run_leaves_distinct_files places absent openAt_out (ran twoSpellings)).2 spares _ _ both
      (by simpa using shared.2)

/-- A component that has the name of a factory is written over it, and nothing is said. -/
theorem run_overwrites_factory
    : Settings.validate namedLikeFactory = .ok namedLikeFactory
      ∧ Index.add { marker := "inject" } clientSource = .ok clientIndex
      ∧ ∃ summary manifest,
          (intoOut namedLikeFactory clientIndex).result = .ok summary
          ∧ (intoOut namedLikeFactory clientIndex).state.store = clientOut namedLikeFactory
          ∧ ((clientOut namedLikeFactory).1.finish (clientOut namedLikeFactory).2).result
            = .ok manifest
          ∧ manifest.artifacts.entries.length ≠ summary.injectables + 1 := by
  obtain ⟨done, kept⟩ := intoOut_clientIndex namedLikeFactory (by simp)
  obtain ⟨manifest, finished⟩ := finish_clientOut namedLikeFactory (by simp)
  obtain ⟨_, _, _, _, _, number⟩ := course_clientIndex namedLikeFactory (by simp)
  refine ⟨by decide +kernel, by decide +kernel, _, _, done, kept, finished, ?_⟩
  rw [(clears_of_finish finished).1, number rfl]
  decide

end Workplace

end Wiring
