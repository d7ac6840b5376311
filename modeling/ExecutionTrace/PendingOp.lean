import ExecutionTrace.Event

/-!
The operation whose snapshots are arriving. Its opcode and memory come before its stack, so they
are held until the stack is used.
-/
namespace ExecutionTrace

/-- An operation in flight; the opcode is absent before the first and after each use. -/
structure PendingOp where
  opcode : Option UInt8 := none
  pc : Nat := 0
  depth : Nat := 0
  memory : Bytes := []
deriving DecidableEq

namespace PendingOp

def start (op : OpStart) : PendingOp :=
  { opcode := some op.opcode, pc := op.pc, depth := op.depth }

def withMemory (p : PendingOp) (memory : Bytes) : PendingOp := { p with memory }

def clear (p : PendingOp) : PendingOp := { p with opcode := none, memory := [] }

end PendingOp
end ExecutionTrace
