import Wiring.Index.Basic

/-! Qualifying paths. A path inside the crate has to lead to a declared type, possibly over public
imports; any other path is taken as it is.
-/

namespace Wiring.Index

/-- Names that need no import. -/
def prelude : List (String × TypeName) :=
  [("String", ⟨"std::string", "String"⟩)]

/-- How many public imports are followed, one after the other. -/
def hopLimit : Nat :=
  16

/-- Leaves one module for each `super` in front; nothing when the crate's root is left. The module's
segments are in reverse.
-/
def climb : List String → List String → Option (List String × List String)
  | module, "super" :: rest =>
      match module with
      | _ :: above :: more => climb (above :: more) rest
      | _ => none
  | module, rest => some (module, rest)

/-- The absolute form of a path that stands in `home`. A first segment that names a module below
`home` starts there, any other one is a crate.
-/
def absolute? (index : Index) (home : String) (path : SpelledPath) : Option String :=
  if path.rooted then some (Segments.join path.segments)
  else
    match path.segments with
    | [] => none
    | first :: rest =>
        if first = "crate" then some (Segments.join path.segments)
        else if first = "self" then some (Segments.join (home :: rest))
        else if first = "super" then
          (climb (Segments.split home).reverse path.segments).map fun (module, rest) =>
            Segments.join (Segments.join module.reverse :: rest)
        else if index.modules.contains (Segments.within home first) then
          some (Segments.join (home :: path.segments))
        else some (Segments.join path.segments)

/-- Whether a path starts at the root of the crate. -/
def isInCrate (path : String) : Bool :=
  "crate::".isPrefixOf path

/-- The declaration that a path of the crate leads to in at most `hops` public imports. One that
names it is followed before those of everything; one that leaves the crate ends there.
-/
def declaration? (index : Index) : Nat → String → Option String
  | 0, path => if index.declares path then some path else none
  | hops + 1, path =>
      if index.declares path then some path
      else
        match Segments.splitLast? path with
        | none => none
        | some (home, name) =>
            match index.namedReexport? home name with
            | some target =>
                match index.absolute? home target with
                | some target =>
                    if isInCrate target then declaration? index hops target else some target
                | none => none
            | none =>
                (index.reexportedGlobs home).findSome? fun glob =>
                  match index.absolute? home glob with
                  | some base =>
                      if base = "crate" ∨ isInCrate base then
                        declaration? index hops (Segments.within base name)
                      else none
                  | none => none

/-- The type at a path that stands in `home`. -/
def qualify? (index : Index) (home : String) (path : SpelledPath) : Option TypeName :=
  match index.absolute? home path with
  | some path =>
      if isInCrate path then (index.declaration? hopLimit path).bind TypeName.parse?
      else TypeName.parse? path
  | none => none

/-- The type of a name that the scope imports with everything else of a module. -/
def globbed? (index : Index) (scope : Scope) (name : String) : Option String :=
  scope.globs.findSome? fun glob =>
    match index.absolute? scope.home glob with
    | some base => index.declaration? hopLimit (Segments.within base name)
    | none => none

/-- The type of a single name: the owner itself, a declaration of the module, an import, something
imported with everything else, or a name of the prelude.
-/
def resolveName? (index : Index) (scope : Scope) (owner : Option TypeName) (name : String)
    : Option TypeName :=
  if name = "Self" then owner
  else if index.declares (Segments.within scope.home name) then
    TypeName.parse? (Segments.within scope.home name)
  else
    match scope.path? name with
    | some path => index.qualify? scope.home path
    | none =>
        match index.globbed? scope name with
        | some path => TypeName.parse? path
        | none => prelude.lookup name

/-- The type at a path written in the scope; `Self` stands for the owner. -/
def resolve? (index : Index) (scope : Scope) (owner : Option TypeName) (path : SpelledPath)
    : Option TypeName :=
  if path.rooted then TypeName.parse? (Segments.join path.segments)
  else
    match path.segments with
    | [] => none
    | [name] => index.resolveName? scope owner name
    | first :: rest =>
        match scope.path? first with
        | some base =>
            if ["crate", "self", "super"].contains first then index.qualify? scope.home path
            else index.qualify? scope.home (base.extend rest)
        | none => index.qualify? scope.home path

/-- The type that a marked declaration constructs. -/
def ownerType? (index : Index) (marked : Marked) : Option TypeName :=
  match index.scopes[marked.scope]?, marked.owner with
  | some scope, some owner => index.resolve? scope none owner
  | _, _ => none

/-- The types of the parameters, in order, if each of them has one. -/
def parameterTypes? (index : Index) (marked : Marked) : Option (List TypeName) :=
  match index.scopes[marked.scope]? with
  | some scope =>
      let owner := index.ownerType? marked
      marked.parameters.mapM fun parameter =>
        match parameter.shape with
        | .shared path => index.resolve? scope owner path
        | .unsupported _ => none
  | none => none

/-- The marked declarations, with the types they mention as far as they are known. -/
def candidates (index : Index) : List Candidate :=
  index.marked.map fun marked =>
    ⟨marked, index.ownerType? marked, index.parameterTypes? marked⟩

end Wiring.Index
