import Wiring.Catalog
import Wiring.Store.Basic

/-! A store that keeps artifacts under their qualified names and refuses none. -/

namespace Wiring

/-- A store that only keeps what is written to it, by qualified names. -/
structure MemoryStore where
  artifacts : Catalog Artifact := {}
  /-- How often it was written to, overwriting included. -/
  writes : Nat := 0
  deriving DecidableEq, Inhabited, Repr

namespace MemoryStore

/-- Keeps an artifact, in place of an earlier one of its name. -/
def insert (store : MemoryStore) (artifact : Artifact) : MemoryStore :=
  ⟨store.artifacts.insert artifact.qualifiedName artifact, store.writes + 1⟩

/-- Writing to memory never fails and tells nothing. -/
def write : Writer MemoryStore :=
  fun store artifact => .done (store.insert artifact) ()

end MemoryStore

end Wiring
