import ExecutionTrace.Evm.Fee
import ExecutionTrace.Evm.Fee.PointSum
import ExecutionTrace.Failure

/-!
Precompiled contracts: their prices, the copy of the input, and what the others say of an input that
is not theirs or cannot be paid. What takes cryptography is not worked out; a call that would have
to be is refused like a wrong input.
-/
namespace ExecutionTrace.Evm.Precompile

inductive Answer where
  | given (cost : Nat) (output : Bytes)
  | refused (exit : ExitCode)
deriving DecidableEq

/-- The answer to an input that is wrong, or that is not worked out. -/
def unanswered : Answer := .refused .precompileError

def priced (gas cost : Nat) (answer : Answer) : Answer :=
  if gas < cost then .refused .precompileOutOfGas else answer

def identity (input : Bytes) (gas : Nat) : Answer :=
  let cost := 15 + 3 * Fee.words input.length
  priced gas cost (.given cost input)

def signer (gas : Nat) : Answer := priced gas 3000 (.given 3000 [])

def hash (base perWord : Nat) (input : Bytes) (gas : Nat) : Answer :=
  priced gas (base + perWord * Fee.words input.length) unanswered

/-- A power of a number. The input begins with the lengths of base, exponent and modulus. -/
def power (input : Bytes) (gas : Nat) : Answer :=
  let number (start length : Nat) := Bytes.toNat (input.window start length)
  let base := number 0 32
  let exponent := number 32 32
  let modulus := number 64 32
  priced gas 200 <|
    if UInt64.size ≤ max base modulus then unanswered
    else if max base modulus = 0 then .given 200 []
    else if UInt64.size ≤ exponent then unanswered
    else
      let head := number (96 + base) (min exponent 32)
      priced gas (Fee.power base exponent modulus head) unanswered

/-- A product of pairings of points, for a base price and a price by the pair of points. The number
of pairs is rounded down. -/
def pairing (base perPair size : Nat) (input : Bytes) (gas : Nat) : Answer :=
  priced gas (base + perPair * (input.length / size)) unanswered

/-- A compression with a number of rounds, which stands in the first four of 213 bytes. -/
def compression (input : Bytes) (gas : Nat) : Answer :=
  if input.length ≠ 213 then unanswered else priced gas (Bytes.toNat (input.take 4)) unanswered

/-- An answer that needs pieces of input of one size, at least one of them, before its price is
known. -/
def inPieces (size : Nat) (input : Bytes) (answer : Answer) : Answer :=
  if input.length = 0 ∨ input.length % size ≠ 0 then unanswered else answer

def pointSum (one : Nat) (parts : List Nat) (size : Nat) (input : Bytes) (gas : Nat) : Answer :=
  inPieces size input (priced gas (Fee.pointSum one parts (input.length / size)) unanswered)

def run (address : Address) (input : Bytes) (gas : Nat) : Answer :=
  match address.toNat with
  | 1 => signer gas
  | 2 => hash 60 12 input gas
  | 3 => hash 600 120 input gas
  | 4 => identity input gas
  | 5 => power input gas
  | 6 => priced gas 150 unanswered
  | 7 => priced gas 6000 unanswered
  | 8 => pairing 45000 34000 192 input gas
  | 9 => compression input gas
  | 10 => priced gas 50000 unanswered
  | 11 => priced gas 375 unanswered
  | 12 => pointSum 12000 Fee.firstGroup 160 input gas
  | 13 => priced gas 600 unanswered
  | 14 => pointSum 22500 Fee.secondGroup 288 input gas
  | 15 => inPieces 384 input (pairing 37700 32600 384 input gas)
  | 16 => priced gas 5500 unanswered
  | 17 => priced gas 23800 unanswered
  | _ => unanswered

end ExecutionTrace.Evm.Precompile
