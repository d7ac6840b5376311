import ExecutionTrace.Bytes

/-!
Machine words and addresses. Arithmetic on balances stops at the ends of the range of a word, and
the laws state it on natural numbers.
-/
namespace ExecutionTrace

/-- A 256-bit machine word. Hashes, storage keys and storage values are words too. -/
abbrev Word := BitVec 256

abbrev Address := BitVec 160

instance : Std.TransOrd Word := inferInstanceAs (Std.TransOrd (BitVec 256))
instance : Std.LawfulEqOrd Word := inferInstanceAs (Std.LawfulEqOrd (BitVec 256))
instance : Std.TransOrd Address := inferInstanceAs (Std.TransOrd (BitVec 160))
instance : Std.LawfulEqOrd Address := inferInstanceAs (Std.LawfulEqOrd (BitVec 160))

namespace Word

def max : Nat := 0xffffffffffffffffffffffffffffffffffffffffffffffffffffffffffffffff

/-- The word of a number, or the largest word for a number beyond it. -/
def clamp (n : Nat) : Word := BitVec.ofNat 256 (min n max)

def satAdd (a b : Word) : Word := clamp (a.toNat + b.toNat)

def satSub (a b : Word) : Word := clamp (a.toNat - b.toNat)

def satMul (a b : Word) : Word := clamp (a.toNat * b.toNat)

def ofUInt64 (n : UInt64) : Word := BitVec.ofNat 256 n.toNat

def toBytes (w : Word) : Bytes := Bytes.ofNat 32 w.toNat

/-- The word that a byte string writes; only its last 32 bytes matter. -/
def ofBytes (bytes : Bytes) : Word := BitVec.ofNat 256 bytes.toNat

/-- The address a word stands for as an operand: its low 20 bytes, whatever the high ones are. -/
def toAddress (w : Word) : Address := w.setWidth 160

@[simp] theorem toNat_clamp (n : Nat) : (clamp n).toNat = min n max := by
  simp only [clamp, BitVec.toNat_ofNat, max]
  omega

@[simp] theorem toNat_satAdd (a b : Word) : (satAdd a b).toNat = min (a.toNat + b.toNat) max := by
  simp [satAdd]

@[simp] theorem toNat_satSub (a b : Word) : (satSub a b).toNat = a.toNat - b.toNat := by
  have := a.isLt
  simp only [satSub, toNat_clamp, max]
  omega

@[simp] theorem toNat_satMul (a b : Word) : (satMul a b).toNat = min (a.toNat * b.toNat) max := by
  simp [satMul]

@[simp] theorem toNat_ofUInt64 (n : UInt64) : (ofUInt64 n).toNat = n.toNat := by
  have := n.toNat_lt
  simp only [ofUInt64, BitVec.toNat_ofNat]
  omega

@[simp] theorem length_toBytes (w : Word) : w.toBytes.length = 32 := by
  simp [toBytes]

@[simp] theorem ofBytes_toBytes (w : Word) : ofBytes w.toBytes = w := by
  apply BitVec.eq_of_toNat_eq
  have hw : w.toNat < Nat.pow 256 32 := w.isLt
  rw [ofBytes, toBytes, Bytes.toNat_ofNat, Nat.mod_eq_of_lt hw, BitVec.ofNat_toNat,
    BitVec.setWidth_eq]

end Word

namespace Address

def toBytes (a : Address) : Bytes := Bytes.ofNat 20 a.toNat

def toWord (a : Address) : Word := a.setWidth 256

@[simp] theorem toAddress_toWord (a : Address) : a.toWord.toAddress = a := by
  apply BitVec.eq_of_toNat_eq
  have := a.isLt
  simp only [toWord, Word.toAddress, BitVec.toNat_setWidth]
  omega

end Address

def satSub64 (a b : UInt64) : UInt64 := if b ≤ a then a - b else 0

def satAdd64 (a b : UInt64) : UInt64 := UInt64.ofNat (min (a.toNat + b.toNat) 0xffffffffffffffff)

@[simp] theorem toNat_satSub64 (a b : UInt64) : (satSub64 a b).toNat = a.toNat - b.toNat := by
  unfold satSub64
  split
  · next h => exact UInt64.toNat_sub_of_le _ _ h
  · next h =>
    have : a.toNat < b.toNat := by simpa [UInt64.le_iff_toNat_le] using h
    simp
    omega

@[simp] theorem toNat_satAdd64 (a b : UInt64) :
    (satAdd64 a b).toNat = min (a.toNat + b.toNat) 0xffffffffffffffff := by
  simp only [satAdd64, UInt64.toNat_ofNat']
  omega

end ExecutionTrace
