import ExecutionTrace.Word

/-!
Memory of a running contract. It grows before it is used, so that reads and writes stay inside.
-/
namespace ExecutionTrace.Evm.Memory

def grow (m : ByteArray) : (count : Nat) → ByteArray
  | 0 => m
  | count + 1 => grow (m.push 0) count

def read (m : ByteArray) (start length : Nat) : Bytes := (m.extract start (start + length)).toList

def write (m : ByteArray) (start : Nat) : Bytes → ByteArray
  | [] => m
  | b :: rest => write (if h : start < m.size then m.set start b h else m) (start + 1) rest

theorem size_grow (m : ByteArray) (count : Nat) : (grow m count).size = m.size + count := by
  induction count generalizing m with
  | zero => rfl
  | succ count ih => rw [grow, ih, ByteArray.size_push]; omega

theorem size_write (m : ByteArray) (start : Nat) (bytes : Bytes) :
    (write m start bytes).size = m.size := by
  induction bytes generalizing m start with
  | nil => rfl
  | cons b rest ih =>
    rw [write, ih]
    split
    · next h => exact Array.size_set h
    · rfl

end ExecutionTrace.Evm.Memory
