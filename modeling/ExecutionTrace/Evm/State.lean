import Std.Data.HashMap
import ExecutionTrace.Event
import ExecutionTrace.Hardfork
import ExecutionTrace.Ledger

/-!
The accounts of a transaction that runs. An account is loaded from the ledger at its first use,
which is dearer than later ones. A journal keeps what is needed to take back what a failed action
did; accounts and slots that it loaded stay loaded, with the values it found.
-/
namespace ExecutionTrace.Evm

structure Slot where
  initial : Word
  present : Word
  warm : Bool
deriving DecidableEq

structure Holding where
  record : AccountRecord
  slots : OrdMap Word Slot := ∅
  warm : Bool := true
  /-- Whether the transaction changes the account, be it by a value of zero. -/
  touched : Bool := false
  created : Bool := false
  destroyed : Bool := false
deriving DecidableEq

structure Move where
  sender : Address
  recipient : Address
  amount : Word
deriving DecidableEq

inductive Change where
  | warmed (a : Address)
  | touched (a : Address)
  /-- The account sent one more transaction. -/
  | counted (a : Address)
  | moved (m : Move)
  /-- The sender of the move destroyed itself, perhaps not for the first time. -/
  | destroyed (m : Move) (again : Bool)
  | created (a : Address)
  | coded (a : Address)
  | slotWarmed (a : Address) (key : Word)
  | slotWritten (a : Address) (key before : Word)
  | transientWritten (a : Address) (key before : Word)
deriving DecidableEq

def Change.move? : Change → Option Move
  | moved m | destroyed m _ => some m
  | _ => none

structure State where
  accounts : OrdMap Address Holding := ∅
  /-- Storage that lasts as long as the transaction. -/
  transient : Std.HashMap (Address × Word) Word := ∅
  /-- The logs so far, latest first. -/
  logs : List LogEntry := []
  /-- The changes that can be taken back, latest first. -/
  journal : List Change := []
  journalLength : Nat := 0

structure Mark where
  journalLength : Nat
  logs : List LogEntry
deriving DecidableEq

structure Surroundings where
  fork : Hardfork
  ledger : Ledger
  coinbase : Address

abbrev Access (α : Type) := StateT State (Except DbFault) α

namespace Holding

def withBalance (h : Holding) (balance : Word) : Holding :=
  { h with record := { h.record with balance } }

def withNonce (h : Holding) (nonce : UInt64) : Holding :=
  { h with record := { h.record with nonce } }

def changedSlot (h : Holding) (key : Word) (f : Slot → Slot) : Holding :=
  match h.slots.get? key with
  | some slot => { h with slots := h.slots.insert key (f slot) }
  | none => h

def hasCode (h : Holding) : Bool := h.record.codeHash ≠ Keccak.ofEmpty && h.record.codeHash ≠ 0

def isEmpty (h : Holding) : Bool := !h.hasCode && h.record.balance = 0 && h.record.nonce = 0

end Holding

/-- Whether the first use of an account is as cheap as a later one. -/
def Surroundings.isWarmFromStart (e : Surroundings) (a : Address) : Bool :=
  e.fork.isPrecompile a || (e.fork.since .shanghai && a = e.coinbase)

namespace State

def holding (s : State) (a : Address) : Holding :=
  (s.accounts.get? a).getD { record := Ledger.blank }

def withHolding (s : State) (a : Address) (h : Holding) : State :=
  { s with accounts := s.accounts.insert a h }

theorem holding_withHolding (s : State) (a b : Address) (h : Holding) :
    (s.withHolding a h).holding b = if b = a then h else s.holding b := by
  simp only [holding, withHolding, OrdMap.get?_insert]
  split <;> rfl

def changed (s : State) (a : Address) (f : Holding → Holding) : State :=
  s.withHolding a (f (s.holding a))

def noted (s : State) (c : Change) : State :=
  { s with journal := c :: s.journal, journalLength := s.journalLength + 1 }

/-- The latest change, when it moved a balance. -/
def lastMove (s : State) : Option Move := s.journal.head?.bind Change.move?

def touched (s : State) (a : Address) : State :=
  if (s.holding a).touched then s
  else (s.changed a fun h => { h with touched := true }).noted (.touched a)

/-- The state with an amount added to the balance of an account, modulo the size of a word. -/
def credited (s : State) (a : Address) (amount : Word) : State :=
  s.changed a fun h => h.withBalance (h.record.balance + amount)

/-- The state with an amount taken from the balance of an account, modulo the size of a word. -/
def debited (s : State) (a : Address) (amount : Word) : State :=
  s.changed a fun h => h.withBalance (h.record.balance - amount)

/-! ### Going back -/

/-- Takes back a change. An amount is moved back rather than a balance restored, so what an account
lost without a note in the journal stays lost. -/
def undo (s : State) : Change → State
  | .warmed a => s.changed a fun h => { h with warm := false }
  | .touched a => s.changed a fun h => { h with touched := false }
  | .counted a => s.changed a fun h => h.withNonce (h.record.nonce - 1)
  | .moved m => (s.credited m.sender m.amount).debited m.recipient m.amount
  | .destroyed m again =>
    let s := (s.credited m.sender m.amount).changed m.sender fun h => { h with destroyed := again }
    if m.recipient = m.sender then s else s.debited m.recipient m.amount
  | .created a => s.changed a fun h => { h.withNonce 0 with created := false }
  | .coded a => s.changed a fun h =>
    { h with record := { h.record with code := none, codeHash := Keccak.ofEmpty } }
  | .slotWarmed a key =>
    s.changed a fun h => h.changedSlot key fun slot => { slot with warm := false }
  | .slotWritten a key before =>
    s.changed a fun h => h.changedSlot key fun slot => { slot with present := before }
  | .transientWritten a key before =>
    { s with transient := s.transient.insert (a, key) before }

def mark (s : State) : Mark := ⟨s.journalLength, s.logs⟩

def rollback (s : State) (m : Mark) : State :=
  let count := s.journalLength - m.journalLength
  { (s.journal.take count).foldl undo s with
    logs := m.logs
    journal := s.journal.drop count
    journalLength := m.journalLength }

@[simp] theorem rollback_mark (s : State) : s.rollback s.mark = s := by
  simp [rollback, mark]

def changes (s : State) : List (Address × AccountChange) :=
  (s.accounts.toList.filter (·.2.touched)).map fun (a, h) =>
    (a, { record := h.record, created := h.created, destroyed := h.destroyed
          slots := OrdMap.ofList (h.slots.toList.map fun (k, slot) => (k, slot.present)) })

end State

namespace Access

def load (e : Surroundings) (a : Address) : Access Bool := fun s =>
  match s.accounts.get? a with
  | some h =>
    if h.warm then .ok (false, s)
    else .ok (true, (s.withHolding a { h with warm := true }).noted (.warmed a))
  | none =>
    match e.ledger.account a with
    | .error fault => .error fault
    | .ok record =>
      let s := s.withHolding a { record := record.getD Ledger.blank }
      if e.isWarmFromStart a then .ok (false, s) else .ok (true, s.noted (.warmed a))

def loadCode (e : Surroundings) (a : Address) : Access (Bytes × Bool) := do
  let cold ← load e a
  let h := (← get).holding a
  match h.record.code with
  | some code => return (code, cold)
  | none =>
    let code ← e.ledger.code h.record.codeHash
    modify (·.withHolding a { h with record := { h.record with code := some code } })
    return (code, cold)

def rollback (m : Mark) : Access Unit := modify (·.rollback m)

inductive Refusal where
  | outOfFunds | overflow
deriving DecidableEq, Repr

/-- Moves balance from one account to another. A value of zero still touches the recipient. An
amount that the recipient's balance has no room for has left the sender all the same. -/
def transfer (e : Surroundings) (m : Move) : Access (Option Refusal) := do
  if m.amount = 0 then
    discard (load e m.recipient)
    modify (·.touched m.recipient)
    return none
  discard (load e m.sender)
  discard (load e m.recipient)
  modify (·.touched m.sender)
  if ((← get).holding m.sender).record.balance < m.amount then return some .outOfFunds
  modify (·.debited m.sender m.amount)
  modify (·.touched m.recipient)
  if Word.max < ((← get).holding m.recipient).record.balance.toNat + m.amount.toNat then
    return some .overflow
  modify fun s => (s.credited m.recipient m.amount).noted (.moved m)
  return none

/-- Counts one more transaction of an account, and gives the count before; nothing when the count
is at its end. -/
def countTransaction (a : Address) : Access (Option UInt64) := fun s =>
  let nonce := (s.holding a).record.nonce
  if nonce = 0xffffffffffffffff then .ok (none, s)
  else
    .ok (some nonce, ((s.touched a).changed a (·.withNonce (nonce + 1))).noted (.counted a))

/-- Reads a slot of a loaded account. The slots of an account created in this transaction start
at zero. -/
def readSlot (e : Surroundings) (a : Address) (key : Word) : Access (Word × Bool) := fun s =>
  let h := s.holding a
  let put (slot : Slot) : State := s.withHolding a { h with slots := h.slots.insert key slot }
  match h.slots.get? key with
  | some slot =>
    if slot.warm then .ok ((slot.present, false), s)
    else
      .ok ((slot.present, true), (put { slot with warm := true }).noted (.slotWarmed a key))
  | none =>
    match if h.created then .ok 0 else e.ledger.slot a key with
    | .error fault => .error fault
    | .ok value =>
      let slot : Slot := { initial := value, present := value, warm := true }
      .ok ((value, true), (put slot).noted (.slotWarmed a key))

def writeSlot (e : Surroundings) (a : Address) (key value : Word) : Access (Slot × Bool) := do
  let (_, cold) ← readSlot e a key
  let s ← get
  let h := s.holding a
  let slot := (h.slots.get? key).getD { initial := 0, present := 0, warm := true }
  if slot.present ≠ value then
    let slots := h.slots.insert key { slot with present := value }
    set ((s.withHolding a { h with slots }).noted (.slotWritten a key slot.present))
  return (slot, cold)

def readTransient (a : Address) (key : Word) : Access Word := fun s =>
  .ok (s.transient.getD (a, key) 0, s)

def writeTransient (a : Address) (key value : Word) : Access Unit := fun s =>
  let before := s.transient.getD (a, key) 0
  if before = value then .ok ((), s)
  else
    let s := { s with transient := s.transient.insert (a, key) value }
    .ok ((), s.noted (.transientWritten a key before))

structure Destruction where
  cold : Bool
  /-- Whether a balance went to an account that was empty. -/
  makesAccount : Bool
  /-- Whether the contract had destroyed itself before. -/
  again : Bool

/-- Destroys a contract in favour of another account. From Cancun on only a contract created in the
same transaction disappears; of any other only the balance goes. -/
def destroy (e : Surroundings) (a beneficiary : Address) : Access Destruction := do
  let cold ← load e beneficiary
  let wasEmpty := ((← get).holding beneficiary).isEmpty
  let amount := ((← get).holding a).record.balance
  if a ≠ beneficiary then
    modify (·.touched beneficiary)
    modify (·.credited beneficiary amount)
  let h := (← get).holding a
  let move : Move := ⟨a, beneficiary, amount⟩
  if h.created || !e.fork.since .cancun then
    modify fun s =>
      (s.withHolding a { h.withBalance 0 with destroyed := true }).noted
        (.destroyed move h.destroyed)
  else if a ≠ beneficiary then
    modify fun s => (s.withHolding a (h.withBalance 0)).noted (.moved move)
  return { cold, makesAccount := amount ≠ 0 && wasEmpty, again := h.destroyed }

inductive Obstacle where
  | collision | overflow
deriving DecidableEq, Repr

def createAccount (creator a : Address) (value : Word) : Access (Option Obstacle) := fun s =>
  let h := s.holding a
  if h.record.codeHash ≠ Keccak.ofEmpty ∨ h.record.nonce ≠ 0 then .ok (some .collision, s)
  else
    let h := { h with created := true, record := { h.record with nonce := 1, code := none } }
    let s := ((s.withHolding a h).noted (.created a)).touched a
    if Word.max < h.record.balance.toNat + value.toNat then .ok (some .overflow, s)
    else
      .ok (none, ((s.credited a value).debited creator value).noted (.moved ⟨creator, a, value⟩))

def setCode (a : Address) (code : Bytes) : Access Unit :=
  modify fun s =>
    ((s.touched a).changed a fun h =>
      { h with record :=
        { h.record with
          code := some code
          codeHash := if code = [] then Keccak.ofEmpty else Keccak.hash code } }).noted (.coded a)

end Access
end ExecutionTrace.Evm
