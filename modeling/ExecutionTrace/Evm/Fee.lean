import ExecutionTrace.Hardfork

/-!
Prices in gas, as they are from Berlin on. Of the rule sets before, only what every transaction
pays is here.
-/
namespace ExecutionTrace.Evm.Fee

def words (n : Nat) : Nat := (n + 31) / 32

def memory (n : Nat) : Nat := 3 * n + n * n / 512

def copy (n : Nat) : Nat := 3 + 3 * words n

def account (cold : Bool) : Nat := if cold then 2600 else 100

def slot (cold : Bool) : Nat := if cold then 2100 else 100

def log (topics length : Nat) : Nat := 375 + 8 * length + 375 * topics

def codeByte : Nat := 200

def initCode (length : Nat) : Nat := 2 * words length

def create : Nat := 32000

def saltedAddress (length : Nat) : Nat := 6 * words length

/-- The gas that comes with a value on top of what the caller gives. -/
def stipend : Nat := 2300

def call (cold hasValue makesAccount : Bool) : Nat :=
  account cold + (if hasValue then 9000 else 0) + (if hasValue && makesAccount then 25000 else 0)

def selfDestruct (cold makesAccount : Bool) : Nat :=
  5000 + (if makesAccount then 25000 else 0) + (if cold then 2600 else 0)

def selfDestructRefund (fork : Hardfork) : Int := if fork.since .london then 0 else 24000

/-- All but a 64th part of the remaining gas, the most that can be handed on. -/
def handedOn (gas : Nat) : Nat := gas - gas / 64

/-- A write to a slot: its value before the transaction, before the write and after it. -/
structure SlotWrite where
  initial : Word
  present : Word
  next : Word

def store (w : SlotWrite) (cold : Bool) : Nat :=
  (if w.next = w.present then 100
    else if w.initial ≠ w.present then 100
    else if w.initial = 0 then 20000
    else 2900) + (if cold then 2100 else 0)

def clearing (fork : Hardfork) : Int := if fork.since .london then 4800 else 15000

/-- What a write to a slot gives back, or takes back when it undoes an earlier clearing. -/
def storeRefund (fork : Hardfork) (w : SlotWrite) : Int :=
  if w.next = w.present then 0
  else if w.initial = w.present ∧ w.next = 0 then clearing fork
  else
    let cleared : Int :=
      if w.initial = 0 then 0
      else if w.present = 0 then -clearing fork
      else if w.next = 0 then clearing fork
      else 0
    let restored : Int :=
      if w.initial ≠ w.next then 0
      else if w.initial = 0 then 19900
      else 2800
    cleared + restored

def refundQuotient (fork : Hardfork) : Nat := if fork.since .london then 5 else 2

/-- The units that the input of a transaction counts: one for a zero byte, more for others. -/
def inputUnits (fork : Hardfork) (input : Bytes) : Nat :=
  let other := if fork.since .istanbul then 4 else 17
  input.foldl (fun n b => n + if b = 0 then 1 else other) 0

def intrinsic (fork : Hardfork) (creates : Bool) (input : Bytes) : Nat :=
  4 * inputUnits fork input + (if creates then 53000 else 21000) +
    (if creates && fork.since .shanghai then initCode input.length else 0)

def floor (fork : Hardfork) (input : Bytes) : Nat :=
  if fork.since .prague then 21000 + 10 * inputUnits fork input else 0

/-- The price of a power of a number: by the lengths of base, exponent and modulus in bytes, and by
the first 32 bytes of the exponent as a number. -/
def power (base exponent modulus head : Nat) : Nat :=
  let words := (max base modulus + 7) / 8
  let steps := max 1 (8 * (exponent - 32) + head.log2)
  max 200 (words * words * steps / 3)

end ExecutionTrace.Evm.Fee
