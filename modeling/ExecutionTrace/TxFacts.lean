import ExecutionTrace.Event
import ExecutionTrace.Hardfork

/-!
What a trace knows of its transaction. Whoever drives the trace states what is known beforehand;
the top action and the settlement add the rest, and no other event changes it.
-/
namespace ExecutionTrace

structure TxFacts where
  gasPrice : Word := 0
  gasLimit : UInt64 := 0
  sender : Address := 0
  /-- The account called; none for a creation. -/
  target : Option Address := none
  value : Word := 0
  input : Bytes := []
  kind : ActionKind := .call
  coinbase : Option Address := none
  baseFee : Word := 0
  created : Option Address := none
  fork : Hardfork := .prague
  /-- Whether a contract is precompiled, so that no code is found at its address. -/
  precompiled : Address → Bool := fork.isPrecompile
  settled : Bool := false
  success : Bool := true
  gasUsed : UInt64 := 0
  output : Bytes := []
  failure : Option Failure := none

namespace TxFacts

/-- Takes the parameters of the transaction from its top action. A gas limit that is known already
stays, because the gas of the action has the intrinsic cost taken off. -/
def withTopEntry (f : TxFacts) (e : Entry) : TxFacts :=
  { f with
    kind := e.kind
    sender := e.sender
    value := e.value
    input := e.input
    target := if e.kind.isCreate then none else e.target
    created := if e.kind.isCreate then e.target.or f.created else f.created
    gasLimit := if f.gasLimit = 0 then e.gas else f.gasLimit }

/-- Takes the outcome. A transaction that failed without a stated failure reverted. -/
def withSettlement (f : TxFacts) (o : Settlement) : TxFacts :=
  { f with
    settled := true
    success := o.success
    gasUsed := o.gasUsed
    output := o.output
    failure := o.failure.or (if o.success then none else some .revert) }

def isCreation (f : TxFacts) : Bool := f.kind.isCreate

def failed (f : TxFacts) : Bool := f.settled && !f.success

/-- The account that receives the value: the one called, else the one created. -/
def recipient (f : TxFacts) : Option Address := f.target.or f.created

/-- The accounts that a transaction settles with. -/
def parties (f : TxFacts) : List Address := f.sender :: (f.recipient.toList ++ f.coinbase.toList)

def tipPerGas (f : TxFacts) : Word := f.gasPrice.satSub f.baseFee

end TxFacts
end ExecutionTrace
