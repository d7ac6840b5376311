import ExecutionTrace.Error
import ExecutionTrace.Evm.Machine

/-!
Execution of one transaction: it is checked and pays for its gas, its action runs, and unused gas
is paid back. The ledger is only read; what is to be committed is part of the result.
-/
namespace ExecutionTrace.Evm

structure Transaction where
  hash : Word
  sender : Address
  /-- The account called; none for a creation. -/
  target : Option Address
  value : Word
  input : Bytes
  gasLimit : UInt64
  gasPrice : Nat
deriving DecidableEq

structure Execution where
  /-- The transactions that the sender had sent before. -/
  nonce : UInt64
  changes : List (Address × AccountChange)
  outcome : Settlement
  /-- The events of the execution; the last one is the settlement. -/
  events : List Event

namespace Transaction

def creates (t : Transaction) : Bool := t.target.isNone

def gasPayment (t : Transaction) : Nat := t.gasLimit.toNat * t.gasPrice

def gasPaymentLimit : Nat := 0xffffffffffffffffffffffffffffffff

/-- The most that the sender can be made to pay; nothing when that is out of range. -/
def maxFee (t : Transaction) : Option Nat :=
  let fee := t.gasPayment + t.value.toNat
  if gasPaymentLimit < t.gasPayment ∨ Word.max < fee then none else some fee

/-- The gas that is left for the action, or why the transaction is not admitted. -/
def actionGas (fork : Hardfork) (t : Transaction) : Except Rejection Nat := do
  let limit := t.gasLimit.toNat
  if t.creates && fork.since .shanghai && Op.initCodeLimit < t.input.length then
    throw .initCodeSize
  let cost := Fee.intrinsic fork t.creates t.input
  if limit < cost then throw (.intrinsicGas cost limit)
  let floor := Fee.floor fork t.input
  if limit < floor then throw (.gasFloor floor limit)
  return limit - cost

/-- The state with gas paid for and, but for a creation, the transaction counted. -/
def paid (t : Transaction) (s : State) : State :=
  s.changed t.sender fun h =>
    { h with
      touched := true
      record := { h.record with
        balance := h.record.balance - BitVec.ofNat 256 t.gasPayment
        nonce := if t.creates then h.record.nonce else satAdd64 h.record.nonce 1 } }

def admitted (e : Surroundings) (t : Transaction) : Except Rejection State := do
  let (_, s) ← (Access.loadCode e t.sender {}).mapError .database
  let some fee := t.maxFee
    | throw .paymentOverflow
  let balance := (s.holding t.sender).record.balance.toNat
  if balance < fee then throw (.lackOfFunds balance fee)
  return t.paid s

def begin (e : Surroundings) (t : Transaction) (gas : Nat) (s : State) :
    Deferring DbFault Progress :=
  match t.target with
  | some target =>
    Machine.call e [] s {}
      { form := .call, caller := t.sender, target, codeAddress := target, value := t.value
        moves := true, gas, input := t.input, static := false, start := 0, length := 0 }
  | none =>
    Machine.create e [] s {}
      { caller := t.sender, salt := none, value := t.value, gas, code := t.input }

/-- The gas that is used in the end: what was spent, less a part of it that is given back, and no
less than the floor. -/
def gasUsed (fork : Hardfork) (t : Transaction) (o : Outcome) : Nat :=
  let spent := t.gasLimit.toNat - o.gasBack
  let refund := min o.refundBack.toNat (spent / Fee.refundQuotient fork)
  max (spent - refund) (Fee.floor fork t.input)

def tip (fork : Hardfork) (baseFee : UInt64) (t : Transaction) : Nat :=
  if fork.since .london then t.gasPrice - baseFee.toNat else t.gasPrice

/-- Pays the sender for the gas that was not used, and the coinbase for the gas that was. -/
def payBack (e : Surroundings) (baseFee : UInt64) (t : Transaction) (used : Nat) :
    Access Unit := do
  let credit (a : Address) (amount : Nat) : Access Unit :=
    modify (·.changed a fun h => h.withBalance (Word.clamp (h.record.balance.toNat + amount)))
  credit t.sender ((t.gasLimit.toNat - used) * t.gasPrice)
  discard (Access.load e e.coinbase)
  modify (·.touched e.coinbase)
  credit e.coinbase (used * t.tip e.fork baseFee)

/-- The outcome of a transaction whose action ended. Output is kept unless an error ended it, and
logs only after success. -/
def settlement (f : Finished) (used : Nat) : Settlement :=
  let exit := f.outcome.exit
  { success := exit.isOk
    gasUsed := .ofNat used
    output := if exit.isOk || exit = .revert then f.outcome.output else []
    logs := if exit.isOk then f.state.logs.reverse else []
    failure :=
      if exit.isOk then none
      else if exit = .revert then some .revert
      else some (f.recording.recorder.topFailure.getD (.other exit.name)) }

/-- Executes a transaction, or says why it is rejected. A failed read that still waits once gas is
paid back rejects it, too. -/
def finished (e : Surroundings) (baseFee : UInt64) (t : Transaction) :
    Deferring Rejection (Finished × Nat) := do
  let gas ← MonadExcept.ofExcept (t.actionGas e.fork)
  let s ← MonadExcept.ofExcept (t.admitted e)
  let run : Deferring DbFault (Finished × Nat) := do
    let f ← Machine.run e (Machine.fuelFor gas) (← t.begin e gas s)
    let used := t.gasUsed e.fork f.outcome
    let ((), state) ← MonadExcept.ofExcept (t.payBack e baseFee used f.state)
    Deferring.raise
    return ({ f with state }, used)
  run.adaptExcept .database

def execute (e : Surroundings) (baseFee : UInt64) (t : Transaction) :
    Deferring TraceError Execution := do
  let record ← MonadExcept.ofExcept ((e.ledger.account t.sender).mapError fun cause =>
    TraceError.unreadable (.account t.sender cause))
  let (f, used) ← (t.finished e baseFee).adaptExcept (.rejected t.hash)
  let outcome := settlement f used
  return {
    nonce := (record.map (·.nonce)).getD 0
    changes := f.state.changes
    outcome
    events := (Event.settled outcome :: f.recording.latestFirst).reverse }

end Transaction
end ExecutionTrace.Evm
