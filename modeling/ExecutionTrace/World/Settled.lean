import ExecutionTrace.TxFacts
import ExecutionTrace.World

/-!
World state with the settlement of one transaction applied and nothing else. It is what a trace
attached at the start of the transaction would have read after gas and value were paid.
-/
namespace ExecutionTrace.World

/-- The value that changes hands: none unless the transaction succeeds. -/
def transferred (f : TxFacts) (o : Settlement) : Word := if o.success then f.value else 0

def gasPayment (f : TxFacts) (o : Settlement) : Word :=
  (Word.ofUInt64 o.gasUsed).satMul f.gasPrice

def tip (f : TxFacts) (o : Settlement) : Word :=
  (Word.ofUInt64 o.gasUsed).satMul f.tipPerGas

def credit (f : TxFacts) (o : Settlement) (a : Address) : Word :=
  Word.satAdd (if f.recipient = some a then transferred f o else 0)
    (if f.coinbase = some a then tip f o else 0)

def debit (f : TxFacts) (o : Settlement) (a : Address) : Word :=
  if a = f.sender then (transferred f o).satAdd (gasPayment f o) else 0

def involves (f : TxFacts) (a : Address) : Bool :=
  a = f.sender || f.recipient = some a || f.coinbase = some a

/-- The view of a database with a settlement applied. Credits are added before the one debit is
taken, so a self-transfer needs no funds beyond the balance. -/
def settled (db : Database) (f : TxFacts) (o : Settlement) : World :=
  let before := ofDatabase db
  { balance a := return ((← before.balance a).satAdd (credit f o a)).satSub (debit f o a)
    nonce a := return satAdd64 (← before.nonce a) (if a = f.sender then 1 else 0)
    code := before.code
    storage := before.storage
    occupied a := if involves f a then .ok true else before.occupied a }

end ExecutionTrace.World
