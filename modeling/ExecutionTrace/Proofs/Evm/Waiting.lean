import ExecutionTrace.Evm.Transaction
import ExecutionTrace.Proofs.Evm.Reads

/-! A transaction above a database all of whose reads come back. No failed read waits after it, be
it executed or rejected, if none waited before it. -/
namespace ExecutionTrace.Evm

namespace Deferring

variable {ε ε' α β : Type}

/-- If no failed read waits before the computation, then none waits after it, whether or not it
fails. -/
def Quiet (x : Deferring ε α) : Prop :=
  match x none with
  | .ok _ deferred => deferred = none
  | .error _ deferred => deferred = none

private theorem Quiet.pure (a : α) : Quiet (pure a : Deferring ε α) := rfl

private theorem Quiet.ofExcept (x : Except ε α) : Quiet
    (MonadExcept.ofExcept x : Deferring ε α) := by
  cases x <;> rfl

private theorem Quiet.raise : Quiet raise := rfl

private theorem Quiet.bind {x : Deferring ε α} {f : α → Deferring ε β} (hx : x.Quiet)
    (hf : ∀ a, (f a).Quiet) : (x >>= f).Quiet := by
  unfold Quiet at hx ⊢
  simp only [Bind.bind, EStateM.bind]
  cases hfirst : x none with
  | ok a deferred =>
    rw [hfirst] at hx
    subst hx
    exact hf a
  | error err deferred =>
    rw [hfirst] at hx
    exact hx

private theorem Quiet.adaptExcept {x : Deferring ε α} (hx : x.Quiet) (f : ε → ε') :
    Quiet (x.adaptExcept f) := by
  unfold Quiet at hx ⊢
  simp only [EStateM.adaptExcept]
  cases hx' : x none with
  | ok a deferred => rwa [hx'] at hx
  | error err deferred => rwa [hx'] at hx

end Deferring

open Deferring

namespace Machine

private theorem quiet_handUp (e : Surroundings) (waiting : List Activation) (state : State)
    (recording : Recording) (range : Option (Nat × Nat)) (o : Outcome) :
    (handUp e waiting state recording range o).Quiet := by
  cases waiting with
  | nil => exact Quiet.pure _
  | cons act waiting => exact Quiet.raise.bind fun _ => Quiet.pure _

private theorem quiet_enter (e : Surroundings) (waiting : List Activation) (state : State)
    (recording : Recording) (hook : Hook) (range : Option (Nat × Nat)) (begin : Access Beginning) :
    (enter e waiting state recording hook range begin).Quiet := by
  refine (Quiet.ofExcept _).bind fun begun => ?_
  obtain ⟨act | o, state⟩ := begun
  · exact Quiet.pure _
  · exact quiet_handUp e waiting state _ range o

private theorem quiet_leave (e : Surroundings) (waiting : List Activation) (r : Running)
    (recording : Recording) (exit : ExitCode) (output : Bytes) :
    (leave e waiting r recording exit output).Quiet :=
  (Quiet.ofExcept _).bind fun _ => quiet_handUp e waiting _ _ _ _

variable {e : Surroundings} (h : e.ledger.base.Answers)

include h in
theorem quiet_step (m : Machine) : (step e m).Quiet := by
  obtain ⟨act, waiting, state, recording⟩ := m
  unfold step
  dsimp only
  split
  · exact Quiet.pure _
  · exact quiet_enter _ _ _ _ _ _ _
  · exact quiet_enter _ _ _ _ _ _ _
  · next cause r hfault => exact absurd hfault (Op.steady_step h _ _ cause r)
  · exact quiet_leave _ _ _ _ _ _

include h in
theorem quiet_run (fuel : Nat) (p : Progress) : (run e fuel p).Quiet := by
  induction fuel generalizing p with
  | zero => cases p <;> exact Quiet.pure _
  | succ fuel ih =>
    cases p with
    | finished f => exact Quiet.pure _
    | next m => exact (quiet_step h m).bind ih

end Machine

namespace Transaction

variable {e : Surroundings} (h : e.ledger.base.Answers)

private theorem quiet_begin (e : Surroundings) (t : Transaction) (gas : Nat) (s : State) :
    (t.begin e gas s).Quiet := by
  unfold begin
  split <;> exact Machine.quiet_enter _ _ _ _ _ _ _

include h in
private theorem quiet_finished (baseFee : UInt64) (t : Transaction) :
    (t.finished e baseFee).Quiet := by
  refine (Quiet.ofExcept _).bind fun gas => (Quiet.ofExcept _).bind fun s => Quiet.adaptExcept ?_ _
  exact (quiet_begin e t gas s).bind fun p => (Machine.quiet_run h _ p).bind fun f =>
    (Quiet.ofExcept _).bind fun paid => Quiet.raise.bind fun _ => Quiet.pure _

include h in
theorem quiet_execute (baseFee : UInt64) (t : Transaction) : (t.execute e baseFee).Quiet :=
  (Quiet.ofExcept _).bind fun _ => (Quiet.adaptExcept (quiet_finished h baseFee t) _).bind fun _ =>
    Quiet.pure _

end Transaction
end ExecutionTrace.Evm
