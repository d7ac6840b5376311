import ExecutionTrace.Frame
import ExecutionTrace.Opcode
import ExecutionTrace.OrdMap
import ExecutionTrace.PendingOp
import ExecutionTrace.TxFacts

/-!
The state before a transaction, for every account it touches. An account is read once, at its
first touch. Sender, recipient and coinbase have then paid or been paid already, which is taken
back when the result is made.
-/
namespace ExecutionTrace

structure Account where
  balance : Word := 0
  nonce : UInt64 := 0
  code : Bytes := []
  storage : OrdMap Word Word := ∅
deriving DecidableEq, Inhabited

/-- The account as a view shows it, without slots; empty where there is none. -/
def Account.read (w : World) (a : Address) : Except ReadFault Account := do
  if ← w.occupied a then
    return { balance := ← w.balance a, nonce := ← w.nonce a, code := ← w.code a }
  else
    return {}

abbrev Accounts := OrdMap Address Account

structure Prestate where
  facts : TxFacts
  captured : Accounts
  /-- The storage context of each open action; unknown for a creation without an address. -/
  scopes : Nesting (Option Address)
  op : PendingOp

/-- A storage context takes nothing from the actions inside. -/
instance : Adopts (Option Address) where
  adopt parent _ := parent

namespace Prestate

def start (facts : TxFacts) : Prestate := ⟨facts, ∅, Nesting.start false, {}⟩

def look (w : World) (accounts : Accounts) (a : Address) : Except ReadFault Accounts :=
  if accounts.contains a then .ok accounts
  else
    match Account.read w a with
    | .ok account => .ok (accounts.insert a account)
    | .error fault => .error fault

/-- Reads accounts in turn up to the first that cannot be read; those before it stay. -/
def lookAll (w : World) (accounts : Accounts) : List Address → Accounts × Except ReadFault Unit
  | [] => (accounts, .ok ())
  | a :: rest =>
    match look w accounts a with
    | .ok accounts => lookAll w accounts rest
    | .error fault => (accounts, .error fault)

def context (p : Prestate) : Option Address := p.scopes.current.join

def targetOf (facts : TxFacts) (e : Entry) : Option Address :=
  match Frame.entryTarget e with
  | some target => some target
  | none => if e.depth = 0 then facts.created else none

def entryTouches (facts : TxFacts) (e : Entry) : List Address :=
  let parties := if e.depth = 0 then facts.parties else []
  parties ++ ((targetOf facts e).filter (!facts.precompiled ·)).toList

def operandTouch (p : Prestate) (opcode : UInt8) (words : List Word) :
    Except OperandFault (Option Address) := do
  if Opcode.touchesAddress opcode then
    return some (← Operand.peek words 0).toAddress
  else if Opcode.isCall opcode then
    let target := (← Operand.peek words 1).toAddress
    return if p.facts.precompiled target then none else some target
  else if Opcode.isSaltedCreation opcode then
    match p.context with
    | none => return none
    | some creator =>
      let code ← Operand.slice p.op.memory (← Operand.peek words 1) (← Operand.peek words 2)
      return some (creator.createdFrom (← Operand.peek words 3) code)
  else
    return none

/-- Takes in the stack of the pending operation. Operands that cannot be decoded touch nothing. -/
def stackStep (w : World) (p : Prestate) (words : List Word) : Prestate × Except TraceError Unit :=
  match p.op.opcode with
  | none => (p, .ok ())
  | some opcode =>
    match p.operandTouch opcode words with
    | .ok (some a) =>
      match look w p.captured a with
      | .ok captured => ({ p with captured, op := p.op.clear }, .ok ())
      | .error fault => (p, .error (.unreadable fault))
    | _ => ({ p with op := p.op.clear }, .ok ())

/-- Takes in one event. What was changed before a failure stays. -/
def step (w : World) (p : Prestate) : Event → Prestate × Except TraceError Unit
  | .entered e =>
    let facts := if e.depth = 0 then p.facts.withTopEntry e else p.facts
    match lookAll w p.captured (entryTouches facts e) with
    | (captured, .error fault) => ({ p with facts, captured }, .error (.unreadable fault))
    | (captured, .ok ()) =>
      let scope := if e.kind.inCallerContext then some e.sender else targetOf facts e
      match p.scopes.enter e.depth scope with
      | (scopes, .ok _) => ({ p with facts, captured, scopes }, .ok ())
      | (scopes, .error v) => ({ p with facts, captured, scopes }, .error (.violation v))
  | .ended ending =>
    match p.scopes.close id with
    | (scopes, .error v) => ({ p with scopes }, .error (.violation v))
    | (scopes, .ok ()) =>
      match lookAll w p.captured ending.created.toList with
      | (captured, .error fault) => ({ p with captured, scopes }, .error (.unreadable fault))
      | (captured, .ok ()) =>
        let facts :=
          match ending with
          | .returned _ _ (some created) =>
            if scopes.opened = 0 ∧ p.facts.isCreation then { p.facts with created := some created }
            else p.facts
          | _ => p.facts
        ({ p with facts, captured, scopes }, .ok ())
  | .opStarted op => ({ p with op := .start op }, .ok ())
  | .memory bytes => ({ p with op := p.op.withMemory bytes }, .ok ())
  | .stack words => stackStep w p words
  | .storage a key value =>
    match look w p.captured a with
    | .error fault => (p, .error (.unreadable fault))
    | .ok captured =>
      let first (account : Account) :=
        { account with storage := account.storage.insertNew key value }
      ({ p with captured := captured.adjust a first }, .ok ())
  | .settled o =>
    if p.scopes.opened ≠ 0 then (p, .error (.violation (.settledOpen p.scopes.opened)))
    else ({ p with facts := p.facts.withSettlement o }, .ok ())
  | _ => (p, .ok ())

/-- The value to give back to the sender: none after a failure. -/
def transferred (f : TxFacts) : Word := if f.failed then 0 else f.value

/-- The accounts with the payments of the transaction taken back, and without the contract that it
created. -/
def reconcile (f : TxFacts) (accounts : Accounts) : Accounts :=
  let gasUsed := Word.ofUInt64 f.gasUsed
  let received (account : Account) :=
    { account with balance := account.balance.satSub (transferred f) }
  let paid (account : Account) :=
    { account with
      balance := (account.balance.satAdd (transferred f)).satAdd (gasUsed.satMul f.gasPrice)
      nonce := satSub64 account.nonce 1 }
  let tipped (account : Account) :=
    { account with balance := account.balance.satSub (gasUsed.satMul f.tipPerGas) }
  let adjustAll (accounts : Accounts) (party : Option Address) (change : Account → Account) :=
    match party with
    | some a => accounts.adjust a change
    | none => accounts
  let accounts := adjustAll accounts f.recipient received
  let accounts := accounts.adjust f.sender paid
  let accounts := adjustAll accounts f.coinbase tipped
  match f.isCreation, f.created with
  | true, some created => accounts.erase created
  | _, _ => accounts

/-- The finished prestate. Sender, recipient and coinbase are always part of it. -/
def output (w : World) (p : Prestate) : Except TraceError Accounts :=
  match lookAll w p.captured p.facts.parties with
  | (_, .error fault) => .error (.unreadable fault)
  | (accounts, .ok ()) => .ok (reconcile p.facts accounts)

end Prestate
end ExecutionTrace
