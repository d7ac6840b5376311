import Mathlib.Data.List.Induction
import ExecutionTrace.PendingOp

/-! What events show of an operation. The first stack after the start of an operation is its own,
and so is the memory shown before that stack. -/
namespace ExecutionTrace

namespace Event

def boundsOperation : Event → Bool
  | .opStarted _ | .stack _ => true
  | _ => false

def memory? : Event → Option Bytes
  | .memory bytes => some bytes
  | _ => none

end Event

/-- The memory shown last; empty if there is none. -/
def lastMemory (shown : List Event) : Bytes := (shown.filterMap Event.memory?).getLast?.getD []

namespace PendingOp

def next (p : PendingOp) : Event → PendingOp
  | .opStarted op => .start op
  | .memory bytes => p.withMemory bytes
  | .stack _ => if p.opcode.isSome then p.clear else p
  | _ => p

private theorem next_of_shown (op : OpStart) {shown : List Event}
    (h : ∀ e ∈ shown, e.boundsOperation = false) :
    shown.foldl next (start op) = { start op with memory := lastMemory shown } := by
  induction shown using List.reverseRecOn with
  | nil => rfl
  | append_singleton shown e ih =>
    have hbefore := ih fun e he => h e (List.mem_append_left _ he)
    have he := h e (List.mem_append_right _ List.mem_cons_self)
    rw [List.foldl_append, hbefore]
    cases e with
    | opStarted op => cases he
    | stack words => cases he
    | memory bytes => simp [lastMemory, next, withMemory, Event.memory?, List.filterMap_append]
    | _ => simp [lastMemory, next, Event.memory?, List.filterMap_append]

theorem next_of_started {events earlier shown : List Event} {op : OpStart}
    (hevents : events = earlier ++ .opStarted op :: shown)
    (hshown : ∀ e ∈ shown, e.boundsOperation = false) :
    events.foldl next {} = { start op with memory := lastMemory shown } := by
  rw [hevents, List.foldl_append, List.foldl_cons]
  exact next_of_shown op hshown

/-- An operation awaits its stack since it started. -/
theorem exists_of_opcode {events : List Event} {opcode : UInt8}
    (h : (events.foldl next {}).opcode = some opcode) :
    ∃ earlier op shown, events = earlier ++ .opStarted op :: shown ∧
      (∀ e ∈ shown, e.boundsOperation = false) ∧ op.opcode = opcode := by
  -- From the end, because the last events decide whether an operation is in flight.
  induction events using List.reverseRecOn with
  | nil => cases h
  | append_singleton events e ih =>
    rw [List.foldl_append] at h
    have hlonger (hquiet : e.boundsOperation = false)
        (hopcode : (events.foldl next {}).opcode = some opcode) :
        ∃ earlier op shown, events ++ [e] = earlier ++ .opStarted op :: shown ∧
          (∀ e ∈ shown, e.boundsOperation = false) ∧ op.opcode = opcode := by
      obtain ⟨earlier, op, shown, rfl, hshown, hop⟩ := ih hopcode
      refine ⟨earlier, op, shown ++ [e], by simp, fun e' he' => ?_, hop⟩
      rcases List.mem_append.mp he' with hmem | hmem
      · exact hshown e' hmem
      · rwa [List.mem_singleton.mp hmem]
    cases e with
    | opStarted op =>
      exact ⟨events, op, [], rfl, fun _ h => (nomatch h), Option.some.inj h⟩
    | stack words =>
      simp only [List.foldl_cons, List.foldl_nil, next] at h
      split at h
      · cases h
      · next hnone => rw [h] at hnone; exact absurd rfl hnone
    | _ => exact hlonger rfl h

end PendingOp
end ExecutionTrace
