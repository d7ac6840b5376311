import ExecutionTrace.Event
import ExecutionTrace.Address.Derived
import ExecutionTrace.Nesting
import ExecutionTrace.RevertReason

/-!
Frames of the call tree. A frame tells one action, the logs it wrote and the frames of the actions
inside it, in the order in which they were entered.
-/
namespace ExecutionTrace

structure FrameLog where
  entry : LogEntry
  /-- The number of actions the frame had entered when the log was written. -/
  position : UInt64
deriving DecidableEq

structure Frame where
  kind : ActionKind
  sender : Address
  gas : UInt64
  gasUsed : UInt64
  target : Option Address
  input : Bytes
  output : Bytes
  error : Option String
  revertReason : Option String
  calls : List Frame
  logs : List FrameLog
  value : Option Word

namespace Frame

def start (kind : ActionKind) (sender : Address) (target : Option Address) (value : Word)
    (gas : UInt64) (input : Bytes) : Frame :=
  { kind, sender, gas, target, input
    gasUsed := 0
    output := []
    error := none
    revertReason := none
    calls := []
    logs := []
    value := if kind.carriesValue then some value else none }

/-- The account an action runs against, as far as its entry tells: the one named, or the one that
its salt fixes. -/
def entryTarget (e : Entry) : Option Address :=
  match e.target, e.salt, e.kind with
  | some target, _, _ => some target
  | none, some salt, .create2 => some (e.sender.createdFrom salt e.input)
  | none, _, _ => none

def ofEntry (e : Entry) : Frame :=
  start e.kind e.sender (entryTarget e) e.value e.gas e.input

def failed (f : Frame) : Bool := f.error.isSome

/-- The frame with a failure. Only a revert hands data back, and a contract that was not created
has no address. -/
def withFailure (f : Frame) (failure : Failure) (output : Bytes) : Frame :=
  { f with
    error := some failure.message
    revertReason := if failure.isRevert then RevertReason.decode output else none
    output := if failure.isRevert then output else []
    target := if f.kind.isCreate then none else f.target }

/-- The frame of an action that ended. A failed action has used all its gas. -/
def withEnding (f : Frame) : Ending → Frame
  | .returned gasLeft output created =>
    { f with
      gasUsed := satSub64 f.gas gasLeft
      output
      target := if f.kind.isCreate then created.or f.target else f.target }
  | .reverted gasLeft output _ =>
    { f with gasUsed := satSub64 f.gas gasLeft }.withFailure .revert output
  | .failed failure _ => { f with gasUsed := f.gas }.withFailure failure []

def withLog (f : Frame) (log : LogEntry) : Frame :=
  { f with logs := f.logs ++ [⟨log, UInt64.ofNat f.calls.length⟩] }

instance : Adopts Frame where
  adopt parent child := { parent with calls := parent.calls ++ [child] }

mutual

/-- The frame without the logs of failed frames and of all frames inside them. -/
def pruneLogs (outerFailed : Bool) : Frame → Frame
  | ⟨kind, sender, gas, gasUsed, target, input, output, error, reason, calls, logs, value⟩ =>
    let failed := outerFailed || error.isSome
    ⟨kind, sender, gas, gasUsed, target, input, output, error, reason,
      pruneAllLogs failed calls, if failed then [] else logs, value⟩

def pruneAllLogs (outerFailed : Bool) : List Frame → List Frame
  | [] => []
  | call :: calls => pruneLogs outerFailed call :: pruneAllLogs outerFailed calls

end

mutual

def count : Frame → Nat
  | ⟨_, _, _, _, _, _, _, _, _, calls, _, _⟩ => 1 + countAll calls

def countAll : List Frame → Nat
  | [] => 0
  | call :: calls => count call + countAll calls

end

mutual

def height : Frame → Nat
  | ⟨_, _, _, _, _, _, _, _, _, calls, _, _⟩ => heightAll calls

def heightAll : List Frame → Nat
  | [] => 0
  | call :: calls => max (height call + 1) (heightAll calls)

end

end Frame
end ExecutionTrace
