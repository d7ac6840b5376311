import ExecutionTrace.CallTree
import ExecutionTrace.Prestate
import ExecutionTrace.Selectors
import ExecutionTrace.Proofs.Nesting

/-! What one event does to the open actions of a trace. Whatever a trace remembers besides, and
whatever it answers, its nesting stays as it is, takes in an entry or an ending, or has its
innermost frame changed. -/
namespace ExecutionTrace

namespace Nesting

variable {α : Type} [Adopts α] {s after : Nesting α}

inductive Moves (s : Nesting α) : Nesting α → Prop
  | stay : Moves s s
  | enter {after : Nesting α} {depth : Nat} {frame : α} {kept : Bool}
      (h : s.enter depth frame = (after, .ok kept)) : Moves s after
  | close {after : Nesting α} {f : α → α} (h : s.close f = (after, .ok ())) : Moves s after
  | change (f : α → α) : Moves s (s.modifyCurrent f)

theorem Moves.of_enter {depth : Nat} {frame : α} {answer : Except Violation Bool}
    (h : s.enter depth frame = (after, answer)) : s.Moves after := by
  cases answer with
  | ok kept => exact .enter h
  | error v => exact enter_refused h ▸ .stay

theorem Moves.of_close {f : α → α} {answer : Except Violation Unit}
    (h : s.close f = (after, answer)) : s.Moves after := by
  cases answer with
  | ok => exact .close h
  | error v => exact close_refused h ▸ .stay

theorem Moves.topOnly (h : s.Moves after) : after.topOnly = s.topOnly := by
  cases h with
  | stay => rfl
  | enter h => exact topOnly_enter h
  | close h => exact topOnly_close h
  | change f => exact topOnly_modifyCurrent s f

theorem Moves.sound (h : s.Moves after) (hs : s.Sound) : after.Sound := by
  cases h with
  | stay => exact hs
  | enter h => exact sound_enter hs h
  | close h => exact sound_close hs h
  | change f => exact sound_modifyCurrent hs f

theorem Moves.whole (h : s.Moves after) (hs : s.Whole) : after.Whole :=
  whole_iff.mpr ⟨h.topOnly.trans hs.all, h.sound hs.sound⟩

end Nesting

theorem CallTree.moves_step (t : CallTree) (e : Event) : t.stack.Moves (t.step e).1.stack := by
  cases e with
  | entered e =>
    simp only [step]
    split
    · next h => exact .of_enter h
    · next h => exact .of_enter h
  | ended ending =>
    simp only [step]
    split
    · next h => exact .of_close h
    · next h => exact .of_close h
  | log l =>
    simp only [step]
    split
    · exact .change _
    · exact .stay
  | settled o =>
    simp only [step]
    split <;> exact .stay
  | _ => exact .stay

theorem Prestate.moves_step (w : World) (p : Prestate) (e : Event) :
    p.scopes.Moves (p.step w e).1.scopes := by
  cases e with
  | entered e =>
    simp only [step]
    split
    · exact .stay
    · split
      · next h => exact .of_enter h
      · next h => exact .of_enter h
  | ended ending =>
    simp only [step]
    split
    · next h => exact .of_close h
    · next h =>
      -- the ending is taken in also where the created account cannot be read
      split <;> exact .of_close h
  | stack words =>
    simp only [step, stackStep]
    split
    · exact .stay
    · split
      · split <;> exact .stay
      · exact .stay
  | storage a key value =>
    simp only [step]
    split <;> exact .stay
  | settled o =>
    simp only [step]
    split <;> exact .stay
  | _ => exact .stay

theorem Selectors.moves_step (s : Selectors) (e : Event) :
    s.scopes.Moves (s.step e).1.scopes := by
  cases e with
  | entered e =>
    simp only [step]
    split
    · next h => exact .of_enter h
    · next h => exact .of_enter h
  | ended ending =>
    simp only [step]
    split
    · next h => exact .of_close h
    · next h => exact .of_close h
  | stack words =>
    simp only [step, stackStep]
    split
    · exact .stay
    · split <;> exact .stay
  | settled o =>
    simp only [step]
    split <;> exact .stay
  | _ => exact .stay

end ExecutionTrace
