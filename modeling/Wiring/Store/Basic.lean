import Wiring.Artifact
import Wiring.Reply

/-! Where artifacts go. A store is any state together with a way of writing to it. -/

namespace Wiring

/-- How a store takes an artifact. -/
abbrev Writer (σ : Type) :=
  σ → Artifact → Reply σ Unit

end Wiring
