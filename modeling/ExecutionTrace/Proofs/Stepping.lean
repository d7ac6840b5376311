import ExecutionTrace.Error
import ExecutionTrace.Event

/-! States that take in events one at a time and go on after the events they do not accept. -/
namespace ExecutionTrace.Stepping

variable {σ : Type}

section Definitions

variable (step : σ → Event → σ × Except TraceError Unit)

def after (s : σ) (events : List Event) : σ :=
  events.foldl (fun s e => (step s e).1) s

def accepted (s : σ) : List Event → List Event
  | [] => []
  | e :: rest =>
    match (step s e).2 with
    | .ok () => e :: accepted (step s e).1 rest
    | .error _ => accepted (step s e).1 rest

end Definitions

variable {step : σ → Event → σ × Except TraceError Unit} {P : σ → Prop}

/-- What every event keeps is kept by all of them. -/
theorem invariant (hstep : ∀ s e, P s → P (step s e).1) {s : σ} (h : P s) (events : List Event) :
    P (after step s events) := by
  induction events generalizing s with
  | nil => exact h
  | cons e rest ih => exact ih (hstep s e h)

/-- What an event brings about where it is accepted, and every event keeps, holds after it was
accepted once. -/
theorem of_mem_accepted (hstep : ∀ s e, P s → P (step s e).1) {e : Event}
    (haccepted : ∀ s, (step s e).2 = .ok () → P (step s e).1) {s : σ} {events : List Event}
    (h : e ∈ accepted step s events) : P (after step s events) := by
  induction events generalizing s with
  | nil => cases h
  | cons first rest ih =>
    rw [accepted] at h
    split at h
    · next hanswer =>
      obtain rfl | hlater := List.mem_cons.mp h
      · exact invariant hstep (haccepted s hanswer) rest
      · exact ih hlater
    · exact ih h

end ExecutionTrace.Stepping
