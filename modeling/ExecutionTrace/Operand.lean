import ExecutionTrace.Hex

/-!
Operands taken from snapshots of stack and memory. An operand that is missing, too large for an
offset or out of bounds is a fault of its own kind.
-/
namespace ExecutionTrace

inductive OperandFault where
  /-- The range ends past the memory that is there. -/
  | outOfBounds (offset stop available : Nat)
  /-- The word does not fit the 64 bits of an offset or length. -/
  | tooLarge (word : Word)
  /-- The stack has fewer words than the operand's position needs. -/
  | missing (index held : Nat)
deriving DecidableEq, Repr

def OperandFault.message : OperandFault → String
  | outOfBounds offset stop available =>
    "tracer accessed out of bound memory: offset " ++ toString offset ++ ", end " ++
      toString stop ++ ", available " ++ toString available
  | tooLarge word =>
    "operand " ++ Hex.quantity word.toNat ++ " does not fit in platform memory addressing"
  | missing index held =>
    "missing stack operand " ++ toString index ++ " (stack holds " ++ toString held ++ " items)"

namespace Operand

def peek (stack : List Word) (index : Nat) : Except OperandFault Word :=
  match stack[index]? with
  | some word => .ok word
  | none => .error (.missing index stack.length)

def size (word : Word) : Except OperandFault Nat :=
  if word.toNat < UInt64.size then .ok word.toNat else .error (.tooLarge word)

/-- The bytes of memory from an offset on. An empty range is never out of bounds, whatever its
offset. -/
def slice (memory : Bytes) (offset length : Word) : Except OperandFault Bytes := do
  let count ← size length
  if count = 0 then return []
  let start ← size offset
  let stop := start + count
  if UInt64.size ≤ stop then throw (.tooLarge offset)
  if memory.length < stop then throw (.outOfBounds start stop memory.length)
  return (memory.drop start).take count

end Operand
end ExecutionTrace
