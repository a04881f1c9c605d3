import Wiring.Container.Workbench

/-! A small application wired by a generated component: a view model over two repositories, each
with a network client of its own unless one is bound, and a context that only the host can supply.
-/

namespace Wiring.Showcase

/-- The type that is asked for in the end. -/
def viewModel : TypeKey :=
  ⟨"viewmodel_app::view_model::MyViewModel"⟩

/-- One of the two types it is made of. -/
def firstRepository : TypeKey :=
  ⟨"viewmodel_app::repository::Repository1"⟩

/-- The other one. -/
def secondRepository : TypeKey :=
  ⟨"viewmodel_app::repository::Repository2"⟩

/-- The client that both repositories take. -/
def client : TypeKey :=
  ⟨"viewmodel_app::net::NetworkClient"⟩

/-- A type of the platform, which only the host can supply. -/
def context : TypeKey :=
  ⟨"viewmodel_app::platform::Context"⟩

/-- The address that every client talks to. -/
def baseAddress : String :=
  "https://www.google.com/"

/-- The rows of the component. -/
def recipes : List Recipe := [
  { key := client, parameters := [], notes := [.createdClient baseAddress] },
  { key := firstRepository, parameters := [client] },
  { key := secondRepository, parameters := [client] },
  { key := viewModel, parameters := [firstRepository, secondRepository, context] }
]

/-- The application: its component, and how many instances it has made. -/
structure Application where
  container : Container := ⟨recipes, {}⟩
  made : Nat := 0
  deriving Repr

namespace Application

/-- Counts an instance of the type and makes it of the parts. -/
def create (application : Application) (type : TypeKey) (label : Option String)
    (parts : List Instance)
    : Application × Instance :=
  let id := application.made + 1
  ({ application with made := id }, .mk id type label parts)

/-- Binds an instance, which it tells. -/
def bind (application : Application) (value : Instance) : Application × List Event :=
  ({ application with container := application.container.bind value.type value },
    [.bound value.type.name])

/-- Starts over with a component that has nothing bound. -/
def renew (application : Application) : Application :=
  { application with container := ⟨recipes, {}⟩ }

/-- Binds a new context for a package. -/
def bindContext (application : Application) (package : String)
    : Application × List Event × Instance :=
  let (application, value) := application.create context (some package) []
  let (application, events) := application.bind value
  (application, events, value)

/-- Makes the client by hand and binds it. -/
def bindClient (application : Application) : Application × List Event × Instance :=
  let (application, value) := application.create client none []
  let (application, events) := application.bind value
  (application, .createdClient baseAddress :: events, value)

/-- Binds both repositories over one new client, which is answered. -/
def bindRepositories (application : Application) : Application × List Event × Instance :=
  let (application, shared) := application.create client none []
  let (application, first) := application.create firstRepository none [shared]
  let (application, bindingFirst) := application.bind first
  let (application, second) := application.create secondRepository none [shared]
  let (application, bindingSecond) := application.bind second
  (application, .createdClient baseAddress :: bindingFirst ++ bindingSecond, shared)

/-- Resolves a type from what is bound and from the constructors. -/
def inject (application : Application) (key : TypeKey)
    : Application × Option (Outcome Instance) :=
  let outcome := application.container.resolveTyped? application.made key
  ({ application with made := (outcome.map Outcome.made).getD application.made }, outcome)

end Application

/-- How the view model greets: by the name of the package that its context is for. -/
def greeting (context : Instance) : String :=
  "Hello " ++ context.label.getD "" ++ "!"

end Wiring.Showcase
