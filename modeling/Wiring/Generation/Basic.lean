import Wiring.Injectable
import Wiring.Marked
import Wiring.Settings

/-! A generation between two rounds: what it has accepted, and which declarations it is done with. -/

namespace Wiring

/-- What a run knows after some rounds. -/
structure Generation where
  settings : Settings
  /-- What has been accepted, ascending by target. -/
  injectables : List Injectable := []
  /-- The keys of the declarations that later rounds pass over. -/
  processed : List String := []
  /-- What the last round left to a later one. -/
  deferred : List Marked := []
  rounds : Nat := 0
  deriving DecidableEq, Repr

namespace Generation

/-- Keeps an injectable, in its place by target. -/
def accept (generation : Generation) (injectable : Injectable) : Generation :=
  { generation with injectables := injectable.insertInto generation.injectables }

/-- The keys of the candidates, without those that a deferred declaration has. -/
def settledKeys (candidates : List Candidate) (deferred : List Marked) : List String :=
  (candidates.map (·.marked.key)).filter fun key => !(deferred.map Marked.key).contains key

/-- Ends a round over the candidates. -/
def settle (generation : Generation) (candidates : List Candidate) (deferred : List Marked)
    : Generation :=
  { generation with processed := settledKeys candidates deferred, deferred }

end Generation

end Wiring
