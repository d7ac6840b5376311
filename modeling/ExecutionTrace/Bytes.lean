/-!
Byte strings, big-endian numbers, and the reading of a byte string beyond its end.
-/
namespace ExecutionTrace

abbrev Bytes := List UInt8

namespace Bytes

/-- The number a byte string writes in base 256, most significant byte first. -/
def toNat (bytes : Bytes) : Nat :=
  bytes.foldl (fun n b => 256 * n + b.toNat) 0

/-- The `width` lowest base-256 digits of a number, most significant first. -/
def ofNat : (width : Nat) → Nat → Bytes
  | 0, _ => []
  | w + 1, n => ofNat w (n / 256) ++ [UInt8.ofNat n]

/-- The `length` bytes from `start` on; past the end of the string they are zero. -/
def window (bytes : Bytes) (start length : Nat) : Bytes :=
  let present := (bytes.drop start).take length
  present ++ List.replicate (length - present.length) 0

@[simp] theorem length_ofNat (w n : Nat) : (ofNat w n).length = w := by
  induction w generalizing n with
  | zero => rfl
  | succ w ih => simp [ofNat, ih]

theorem toNat_append_singleton (bytes : Bytes) (b : UInt8) :
    toNat (bytes ++ [b]) = 256 * toNat bytes + b.toNat := by
  simp [toNat, List.foldl_append]

/-- Digits below the width are kept; higher ones are lost. -/
theorem toNat_ofNat (w n : Nat) : toNat (ofNat w n) = n % Nat.pow 256 w := by
  induction w generalizing n with
  | zero => exact (Nat.mod_one n).symm
  | succ w ih =>
    have hb : (UInt8.ofNat n).toNat = n % 256 := UInt8.toNat_ofNat'
    have hp : Nat.pow 256 (w + 1) = 256 * Nat.pow 256 w := Nat.mul_comm _ _
    rw [ofNat, toNat_append_singleton, ih, hb, hp, Nat.mod_mul]
    omega

@[simp] theorem length_window (bytes : Bytes) (start length : Nat) :
    (window bytes start length).length = length := by
  simp only [window, List.length_append, List.length_replicate, List.length_take]
  omega

end Bytes
end ExecutionTrace
