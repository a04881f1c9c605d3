import Wiring.Reply

/-! Replies of steps in sequence: how one that succeeded or failed as a whole got there, and what state
it has left.
-/

namespace Wiring

namespace Reply

variable {σ α β : Type} {reply : Reply σ α} {next : σ → α → Reply σ β}

/-- A step that succeeds as a whole succeeded at first, and then went on from there. -/
theorem andThen_eq_ok {result : β} (ended : (reply.andThen next).result = .ok result)
    : ∃ value,
        reply.result = .ok value
        ∧ (next reply.state value).result = .ok result
        ∧ (reply.andThen next).state = (next reply.state value).state := by
  obtain ⟨state, events, answer⟩ := reply
  cases answer with
  | error failure => simp [andThen] at ended
  | ok value => exact ⟨value, rfl, ended, rfl⟩

/-- A step that succeeded hands its state and value on to the next one. -/
theorem andThen_of_ok {value : α} (done : reply.result = .ok value)
    : (reply.andThen next).result = (next reply.state value).result
      ∧ (reply.andThen next).state = (next reply.state value).state := by
  obtain ⟨state, events, answer⟩ := reply
  obtain rfl : answer = .ok value := done
  exact ⟨rfl, rfl⟩

/-- A step that failed is not followed by another. -/
theorem andThen_of_error {failure : Failure} (failed : reply.result = .error failure)
    : (reply.andThen next).result = .error failure := by
  obtain ⟨state, events, answer⟩ := reply
  obtain rfl : answer = .error failure := failed
  rfl

/-- A failure leaves the state where the failing step left it. -/
theorem state_andThen_of_error {failure : Failure} (failed : reply.result = .error failure)
    : (reply.andThen next).state = reply.state := by
  obtain ⟨state, events, answer⟩ := reply
  obtain rfl : answer = .error failure := failed
  rfl

/-- A step about a part of a state may be followed by the next one before or after the rest of the
state is put around it.
-/
theorem lift_andThen {τ : Type} {f : σ → τ} {nextLifted : τ → α → Reply τ β}
    (same : ∀ state value, (next state value).lift f = nextLifted (f state) value)
    : (reply.andThen next).lift f = (reply.lift f).andThen nextLifted := by
  obtain ⟨state, events, answer⟩ := reply
  cases answer with
  | error failure => rfl
  | ok value => exact congrArg (telling events) (same state value)

/-- What holds after a first step, and is kept by what follows it, holds after both. -/
theorem state_andThen {good : σ → Prop} (first : good reply.state)
    (follows : ∀ value, good (next reply.state value).state)
    : good (reply.andThen next).state := by
  obtain ⟨state, events, answer⟩ := reply
  cases answer with
  | error failure => exact first
  | ok value => exact follows value

/-- A step that fails as a whole failed at first, or after it went on. -/
theorem andThen_eq_error {failure : Failure} (ended : (reply.andThen next).result = .error failure)
    : reply.result = .error failure
      ∨ ∃ value,
          reply.result = .ok value ∧ (next reply.state value).result = .error failure := by
  obtain ⟨state, events, answer⟩ := reply
  cases answer with
  | error found => exact .inl (congrArg Except.error (Except.error.inj ended))
  | ok value => exact .inr ⟨value, rfl, ended⟩

/-- Seeing a state as part of a larger one does not touch the result. -/
@[simp]
theorem result_lift {τ : Type} (f : σ → τ) (reply : Reply σ α)
    : (reply.lift f).result = reply.result :=
  rfl

/-- A mapped reply that succeeds comes from a success, for mapping makes none. -/
theorem map_eq_ok {f : α → β} {result : β} (ended : (reply.map f).result = .ok result)
    : ∃ value, reply.result = .ok value ∧ f value = result := by
  obtain ⟨state, events, answer⟩ := reply
  cases answer with
  | error failure => simp [map, Except.map] at ended
  | ok value => exact ⟨value, rfl, Except.ok.inj ended⟩

/-- A mapped reply that fails comes from the same failure. -/
theorem map_eq_error {f : α → β} {failure : Failure}
    (ended : (reply.map f).result = .error failure)
    : reply.result = .error failure := by
  obtain ⟨state, events, answer⟩ := reply
  cases answer with
  | error found => exact congrArg Except.error (Except.error.inj ended)
  | ok value => simp [map, Except.map] at ended

end Reply

end Wiring
