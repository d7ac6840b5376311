import ExecutionTrace.Word

/-!
Code of a contract. Past its end it goes on with zero bytes, which stop the machine. A jump goes
to a marker byte only, and not to one that belongs to the operand of a push.
-/
namespace ExecutionTrace.Evm

structure Code where
  bytes : ByteArray
  /-- For each byte, whether a jump may go there. -/
  targets : Array Bool

namespace Code

def operandWidth (b : UInt8) : Nat := if 0x60 ≤ b ∧ b ≤ 0x7f then b.toNat - 0x5f else 0

/-- Marks the jump targets among further bytes, the first `skip` of which are an operand. -/
def markTargets : (marked : Array Bool) → (skip : Nat) → Bytes → Array Bool
  | marked, _, [] => marked
  | marked, 0, b :: rest => markTargets (marked.push (b = 0x5b)) (operandWidth b) rest
  | marked, skip + 1, _ :: rest => markTargets (marked.push false) skip rest

theorem size_markTargets (marked : Array Bool) (skip : Nat) (bytes : Bytes) :
    (markTargets marked skip bytes).size = marked.size + bytes.length := by
  fun_induction markTargets marked skip bytes with
  | case1 => rfl
  | case2 marked b rest ih => simp only [ih, Array.size_push, List.length_cons]; omega
  | case3 marked skip b rest ih => simp only [ih, Array.size_push, List.length_cons]; omega

def ofBytes (bytes : Bytes) : Code := ⟨⟨bytes.toArray⟩, markTargets #[] 0 bytes⟩

def byteAt (c : Code) (pc : Nat) : UInt8 := if h : pc < c.bytes.size then c.bytes[pc] else 0

def isTarget (c : Code) (pc : Nat) : Bool := c.targets.getD pc false

/-- The number that `width` bytes from `pc` on write after the digits of `n`. -/
def numberAt (c : Code) (pc : Nat) : (width : Nat) → (n : Nat) → Nat
  | 0, n => n
  | width + 1, n => numberAt c (pc + 1) width (256 * n + (c.byteAt pc).toNat)

end Code
end ExecutionTrace.Evm
