import Wiring.Failure
import Wiring.Index.Basic
import Wiring.Source.File

/-! Adding a source file to an index. Items of test builds are left out, and so is all that stands
inside them.
-/

namespace Wiring

open Source

/-- A source file and the module it is compiled as. -/
structure SourceFile where
  path : FilePath
  home : String
  content : String
  deriving DecidableEq, Inhabited, Repr

namespace Source

/-- Whether one of the attributes is the marker, under whatever path. -/
def carries (marker : String) (attributes : List Attribute) : Bool :=
  attributes.any fun attr => attr.path.getLast? = some marker

/-- Attributes that are looked at; items that declare nothing have none. -/
def Item.gate : Item → List Attribute
  | .other _ => []
  | item => item.attributes

/-- Whether an item is only there in tests. -/
def Item.isTestOnly (item : Item) : Bool :=
  Source.isTestOnly item.gate

/-- How a kind of type is named in a description. -/
def TypeKind.text : TypeKind → String
  | struct => "struct"
  | enumeration => "enum"
  | union => "union"
  | typeAlias => "type alias"

/-- Whether the output is the owner: `Self`, or the owner's own name, without arguments. -/
def Signature.returnsOwner (signature : Signature) (owner : Option SpelledPath) : Bool :=
  match signature.output.bind TypeExpr.path? with
  | some path =>
      match path.segments.getLast? with
      | some last =>
          last.arguments = .none
            && (last.name = "Self" || owner.bind SpelledPath.last? = some last.name)
      | none => false
  | none => false

/-- The first reason, if any, why a function of an implementation is no constructor. -/
def Signature.objection? (signature : Signature) (ofTrait : Bool) (owner : Option SpelledPath)
    : Option Objection :=
  if ofTrait then some .traitMember
  else if owner.isNone then some .ownerNotNominal
  else if signature.takesSelf then some .takesSelf
  else if signature.isAsync then some .isAsync
  else if signature.isGeneric then some .isGeneric
  else if !signature.returnsOwner owner then some .wrongOutput
  else none

/-- `Arc<T>` asks for a shared instance of `T`. -/
def TypeExpr.shape (type : TypeExpr) : ParameterShape :=
  match type.path?.bind fun path => path.segments.getLast? with
  | some ⟨"Arc", .lone path⟩ => .shared path
  | _ => .unsupported type.text

/-- What is recorded of a parameter. -/
def FunctionParameter.declared (parameter : FunctionParameter) : Parameter :=
  ⟨parameter.name, parameter.type.shape⟩

end Source

namespace Index

/-- A module and those it lies in; `fuel` bounds their number. -/
def lineage (fuel : Nat) (home : String) : List String :=
  match fuel with
  | 0 => [home]
  | fuel + 1 =>
      match Segments.splitLast? home with
      | some (above, _) => home :: lineage fuel above
      | none => [home]

/-- Records a module and the modules that it lies in. -/
def registerModule (index : Index) (home : String) : Index :=
  { index with modules := index.modules ++ lineage home.length home }

/-- Records the declaration of a type. -/
def declare (index : Index) (home name : String) : Index :=
  { index with declared := index.declared ++ [Segments.within home name] }

/-- Records what a module makes visible outside. -/
def reexport (index : Index) (home : String) (imports : List Import) : Index :=
  { index with reexports := index.reexports ++ imports.map (Reexport.mk home) }

/-- Records a marked declaration. -/
def mark (index : Index) (marked : Marked) : Index :=
  { index with marked := index.marked ++ [marked] }

/-- Records a marked declaration that is no function of an implementation. -/
def markOther (index : Index) (file : FilePath) (home : String) (scope : Nat) (what : String)
    (attributes : List Attribute) (name : String) (line : Nat) : Index :=
  if carries index.marker attributes then
    index.mark {
      location := ⟨file, line⟩
      home
      scope
      owner := none
      ownerIsGeneric := false
      name
      objection := some (.notAFunction what)
      parameters := []
    }
  else index

/-- Whether a member is a marked function outside test builds. -/
def isMarkedFunction (marker : String) (attributes : List Attribute) : Bool :=
  carries marker attributes && !Source.isTestOnly attributes

/-- Records the marked functions of an implementation. -/
def addMember (file : FilePath) (home : String) (scope : Nat) (block : ImplBlock) (index : Index)
    : Member → Index
  | .other _ => index
  | .function attributes signature =>
      if isMarkedFunction index.marker attributes then
        let owner := block.owner?.map TypePath.spelled
        index.mark {
          location := ⟨file, signature.line⟩
          home
          scope
          owner
          ownerIsGeneric := block.isGeneric || block.owner?.any TypePath.hasArguments
          name := signature.name
          objection := signature.objection? block.ofTrait owner
          parameters := signature.parameters.map FunctionParameter.declared
        }
      else index

/-- Opens the scope of a module's body, under the next number. -/
def openScope (index : Index) (home : String) (items : List Item) : Index :=
  { index with scopes := index.scopes ++ [Scope.ofItems home items] }

mutual

/-- Adds an item that stands in `home`, in the scope of the given number. -/
def addItem (file : FilePath) (home : String) (scope : Nat) (index : Index) (item : Item)
    : Index :=
  if item.isTestOnly then index
  else
    match item with
    | .imports _ exported rooted tree =>
        if exported then index.reexport home (Import.ofTree rooted [] tree) else index
    | .type attributes kind name line =>
        (index.declare home name).markOther file home scope kind.text attributes name line
    | .trait attributes name line _ =>
        (index.declare home name).markOther file home scope "trait" attributes name line
    | .function attributes signature =>
        index.markOther file home scope "free function" attributes signature.name signature.line
    | .submodule _ name body =>
        let inner := Segments.within home name
        let index := index.registerModule inner
        addItems file inner index.scopes.length (index.openScope inner body) body
    | .fileModule _ name => index.registerModule (Segments.within home name)
    | .implementation _ block => block.members.foldl (addMember file home scope block) index
    | .other _ => index

/-- Adds the items of a body in turn. -/
def addItems (file : FilePath) (home : String) (scope : Nat) (index : Index) (items : List Item)
    : Index :=
  match items with
  | [] => index
  | item :: rest => addItems file home scope (addItem file home scope index item) rest

end

/-- Adds the items of a file that has been parsed. -/
def addParsed (index : Index) (file : FilePath) (home : String) (items : List Item) : Index :=
  let index := index.registerModule home
  let index := addItems file home index.scopes.length (index.openScope home items) items
  { index with files := index.files ++ [file] }

/-- Adds a source file. One that cannot be parsed changes nothing. -/
def add (index : Index) (source : SourceFile) : Except Failure Index :=
  match Item.ofText? source.content with
  | some items => .ok (index.addParsed source.path source.home items)
  | none => .error (.unparsable source.path)

end Index

end Wiring
