import ExecutionTrace.Evm.Code
import ExecutionTrace.Evm.Fee
import ExecutionTrace.Evm.Instruction
import ExecutionTrace.Evm.Memory
import ExecutionTrace.Evm.State

/-!
Running code: an activation holds what the code of one action works with. Its instructions are
computations that end by going on, by ending the action, or by asking for an action inside.
-/
namespace ExecutionTrace.Evm

inductive Purpose where
  /-- Goes to the memory of the caller, into a range that may be too short for it. -/
  | call (start length : Nat)
  /-- Becomes the code of a new account. -/
  | creation (address : Address)
deriving DecidableEq

def Purpose.range? : Purpose → Option (Nat × Nat)
  | call start length => some (start, length)
  | creation _ => none

structure Activation where
  code : Code
  pc : Nat := 0
  /-- The operands, top first. -/
  stack : List Word := []
  height : Nat := 0
  memory : ByteArray := .empty
  gas : Nat
  /-- The gas to give back if the action succeeds. -/
  refund : Int := 0
  /-- The account on whose storage the code works. -/
  contract : Address
  caller : Address
  value : Word
  static : Bool
  /-- What the latest action inside handed back. -/
  returned : Bytes := []
  /-- The number of actions around this one. -/
  depth : Nat
  purpose : Purpose
  /-- The point to go back to if the action fails. -/
  mark : Mark

structure CallRequest where
  form : CallForm
  caller : Address
  target : Address
  codeAddress : Address
  value : Word
  /-- Whether the value is moved, and not just shown to the code. -/
  moves : Bool
  gas : Nat
  input : Bytes
  static : Bool
  start : Nat
  length : Nat

structure CreateRequest where
  caller : Address
  salt : Option Word
  value : Word
  gas : Nat
  code : Bytes

inductive Pause where
  | ended (exit : ExitCode) (output : Bytes)
  | calls (request : CallRequest)
  | creates (request : CreateRequest)
  | fault (cause : DbFault)

structure Running where
  act : Activation
  state : State

abbrev Op (α : Type) := EStateM Pause Running α

namespace Op

def halt {α : Type} (exit : ExitCode) : Op α := throw (.ended exit [])

def access {α : Type} (x : Access α) : Op α := fun r =>
  match x r.state with
  | .ok (a, state) => .ok a { r with state }
  | .error cause => .error (.fault cause) r

def view {α : Type} (f : Activation → α) : Op α := return f (← get).act

def update (f : Activation → Activation) : Op Unit := modify fun r => { r with act := f r.act }

def chargeOr (exit : ExitCode) (cost : Nat) : Op Unit := fun r =>
  if r.act.gas < cost then .error (.ended exit []) r
  else .ok () { r with act := { r.act with gas := r.act.gas - cost } }

def charge (cost : Nat) : Op Unit := chargeOr .outOfGas cost

def pop : Op Word := fun r =>
  match r.act.stack with
  | [] => .error (.ended .stackUnderflow []) r
  | w :: rest =>
    .ok w { r with act := { r.act with stack := rest, height := r.act.height - 1 } }

def push (w : Word) : Op Unit := fun r =>
  if 1024 ≤ r.act.height then .error (.ended .stackOverflow []) r
  else
    .ok () { r with act := { r.act with stack := w :: r.act.stack, height := r.act.height + 1 } }

def need (count : Nat) : Op Unit := do
  if (← view (·.height)) < count then halt .stackUnderflow

def sizeOr (exit : ExitCode) (w : Word) : Op Nat :=
  if w.toNat < UInt64.size then return w.toNat else halt exit

def size (w : Word) : Op Nat := sizeOr .operandOutOfGas w

def expand (start length : Nat) : Op Unit := do
  let present := (← view (·.memory.size)) / 32
  let wanted := Fee.words (start + length)
  if present < wanted then
    chargeOr .memoryOutOfGas (Fee.memory wanted - Fee.memory present)
    update fun a => { a with memory := Memory.grow a.memory (32 * (wanted - present)) }

/-- The place of a range of memory, which is grown to hold it. The place of an empty range does
not matter, so it is not looked at. -/
def range (start : Word) (length : Nat) : Op Nat := do
  if length = 0 then return 0
  let start ← size start
  expand start length
  return start

def bytes (start : Word) (length : Nat) : Op Bytes := do
  if length = 0 then return []
  let start ← range start length
  view fun a => Memory.read a.memory start length

def write (start : Nat) (bytes : Bytes) : Op Unit :=
  update fun a => { a with memory := Memory.write a.memory start bytes }

def needChanges : Op Unit := do
  if ← view (·.static) then halt .stateChangeInStatic

end Op
end ExecutionTrace.Evm
