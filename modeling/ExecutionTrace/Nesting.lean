import ExecutionTrace.Error

/-!
The open actions of an execution. Entering opens one more, ending closes the innermost and hands
its frame to the one around it, until the top frame is all that is left.
-/
namespace ExecutionTrace

/-- Frames that take in the frames of the actions inside them. -/
class Adopts (α : Type) where
  /-- The frame with one more finished frame inside, after those it has. -/
  adopt : α → α → α

/-- The open actions and what is known of the finished ones. -/
structure Nesting (α : Type) where
  /-- The frames of the open actions that are kept, innermost first. -/
  frames : List α
  /-- The number of open actions, kept or not. -/
  opened : Nat
  topOnly : Bool
  /-- The frame of the finished top action. -/
  root : Option α
deriving DecidableEq

namespace Nesting

variable {α : Type}

def start (topOnly : Bool) : Nesting α := ⟨[], 0, topOnly, none⟩

def keeps (s : Nesting α) (depth : Nat) : Bool := !s.topOnly || depth = 0

/-- Opens an action and tells whether it is kept. Its depth must be the number of open actions, and
only one action of an execution has depth zero. -/
def enter (s : Nesting α) (depth : Nat) (frame : α) : Nesting α × Except Violation Bool :=
  if depth ≠ s.opened then (s, .error (.entryDepth depth s.opened))
  else if depth = 0 ∧ s.root.isSome then (s, .error .secondTop)
  else
    ({ s with
        opened := s.opened + 1
        frames := if s.keeps depth then frame :: s.frames else s.frames },
      .ok (s.keeps depth))

/-- Closes the innermost open action. A frame that is kept is finished first, with a report of
its own, and then goes to the frame around it. -/
def exit [Adopts α] {ρ : Type} (s : Nesting α) (finish : α → α × ρ) :
    Nesting α × Except Violation (Option ρ) :=
  if s.opened = 0 then (s, .error .unmatchedEnding)
  else
    let opened := s.opened - 1
    if s.frames.length ≤ opened then ({ s with opened }, .ok none)
    else
      match s.frames with
      | [] => ({ s with opened }, .ok none)
      | [frame] =>
        let (done, report) := finish frame
        ({ s with opened, frames := [], root := some done }, .ok (some report))
      | frame :: parent :: rest =>
        let (done, report) := finish frame
        ({ s with opened, frames := Adopts.adopt parent done :: rest }, .ok (some report))

def close [Adopts α] (s : Nesting α) (finish : α → α) : Nesting α × Except Violation Unit :=
  let (s, answer) := s.exit fun frame => (finish frame, ())
  (s, answer.map fun _ => ())

/-- Whether the frame of the innermost open action is kept. -/
def isTracking (s : Nesting α) : Bool := 0 < s.opened && s.frames.length = s.opened

def current (s : Nesting α) : Option α := s.frames.head?

def modifyCurrent (s : Nesting α) (f : α → α) : Nesting α :=
  if s.isTracking then
    { s with frames := match s.frames with
        | [] => []
        | frame :: rest => f frame :: rest }
  else s

def isFinished (s : Nesting α) : Bool := s.opened = 0 && s.root.isSome

end Nesting
end ExecutionTrace
