import Wiring.Event
import Wiring.Failure

/-! Answers of steps that work on a state and may fail. A failed step leaves behind what it has
done and told by then.
-/

namespace Wiring

/-- What a step leaves behind: a state, what it told and its result. -/
structure Reply (σ α : Type) where
  /-- The state after the step, whether it failed or not. -/
  state : σ
  events : List Event
  result : Except Failure α

namespace Reply

variable {σ τ α β : Type}

/-- A step that tells nothing and succeeds. -/
def done (state : σ) (value : α) : Reply σ α :=
  ⟨state, [], .ok value⟩

/-- A step that tells nothing and fails. -/
def failed (state : σ) (failure : Failure) : Reply σ α :=
  ⟨state, [], .error failure⟩

/-- The same reply, after other events. -/
def telling (events : List Event) (reply : Reply σ α) : Reply σ α :=
  { reply with events := events ++ reply.events }

/-- Goes on with `next` unless the step failed. -/
def andThen (reply : Reply σ α) (next : σ → α → Reply σ β) : Reply σ β :=
  match reply with
  | ⟨state, events, .ok value⟩ => (next state value).telling events
  | ⟨state, events, .error failure⟩ => ⟨state, events, .error failure⟩

/-- The same step with another result. -/
def map (f : α → β) (reply : Reply σ α) : Reply σ β :=
  { reply with result := reply.result.map f }

/-- The same reply, about a state of which the step's own state is a part. -/
def lift (f : σ → τ) (reply : Reply σ α) : Reply τ α :=
  { reply with state := f reply.state }

/-- A step that only succeeds adds nothing to what follows it. -/
@[simp]
theorem done_andThen (state : σ) (value : α) (next : σ → α → Reply σ β)
    : (done state value).andThen next = next state value := by
  simp [done, andThen, telling]

end Reply

end Wiring
