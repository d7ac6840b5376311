import ExecutionTrace.OrdMap
import ExecutionTrace.World

/-!
A database with the changes of finished transactions above it. The changes of a transaction are
committed account by account, and reads see the latest of them.
-/
namespace ExecutionTrace

/-- How an account stands to the database below. -/
inductive Standing where
  /-- Its slots show through where none was written. -/
  | changed
  /-- It was created anew, and its slots below count no more. -/
  | cleared
  /-- It was destroyed, and nothing has touched it since. -/
  | gone
deriving DecidableEq, Repr

structure Committed where
  record : AccountRecord
  standing : Standing
  /-- The slots written or read so far. -/
  slots : OrdMap Word Word
deriving DecidableEq

structure AccountChange where
  record : AccountRecord
  created : Bool
  destroyed : Bool
  /-- The values of the slots that the transaction read or wrote. -/
  slots : OrdMap Word Word
deriving DecidableEq

structure Ledger where
  base : Database
  accounts : OrdMap Address Committed
  codes : OrdMap Word Bytes

namespace Ledger

def blank : AccountRecord := { balance := 0, nonce := 0, codeHash := Keccak.ofEmpty, code := none }

def ofDatabase (base : Database) : Ledger := ⟨base, ∅, ∅⟩

def account (l : Ledger) (a : Address) : Except DbFault (Option AccountRecord) :=
  match l.accounts.get? a with
  | some entry => .ok (if entry.standing = .gone then none else some entry.record)
  | none => l.base.account a

def code (l : Ledger) (hash : Word) : Except DbFault Bytes :=
  if hash = Keccak.ofEmpty ∨ hash = 0 then .ok []
  else
    match l.codes.get? hash with
    | some code => .ok code
    | none => l.base.code hash

def slotOf (l : Ledger) (entry : Committed) (a : Address) (key : Word) : Except DbFault Word :=
  match entry.slots.get? key, entry.standing with
  | some value, _ => .ok value
  | none, .changed => l.base.storage a key
  | none, _ => .ok 0

def storage (l : Ledger) (a : Address) (key : Word) : Except DbFault Word :=
  match l.accounts.get? a with
  | some entry => l.slotOf entry a key
  | none => l.base.storage a key

/-- The value of a slot for a machine, which looks at the account before its slots: without an
account there is no slot to read, and an account that cannot be read hides its slots. -/
def slot (l : Ledger) (a : Address) (key : Word) : Except DbFault Word :=
  match l.accounts.get? a with
  | some entry => l.slotOf entry a key
  | none => do
    match ← l.base.account a with
    | some _ => l.base.storage a key
    | none => return 0

def database (l : Ledger) : Database := ⟨l.account, l.code, l.storage⟩

/-- The record as it is stored: code has a hash, and no code has the hash of the empty string. -/
def stored (r : AccountRecord) : AccountRecord :=
  let hash := if r.codeHash = Keccak.ofEmpty then
      match r.code with
      | none | some [] => r.codeHash
      | some code => Keccak.hash code
    else r.codeHash
  { r with codeHash := if hash = 0 then Keccak.ofEmpty else hash }

def keepCode (codes : OrdMap Word Bytes) (r : AccountRecord) : OrdMap Word Bytes :=
  match r.code with
  | none | some [] => codes
  | some code => codes.insertNew r.codeHash code

def before (l : Ledger) (a : Address) : Standing × OrdMap Word Word :=
  match l.accounts.get? a with
  | some entry => (entry.standing, entry.slots)
  | none => (.changed, ∅)

def after (earlier : Standing × OrdMap Word Word) (change : AccountChange) : Committed :=
  if change.destroyed then { record := blank, standing := .gone, slots := ∅ }
  else
    let slots := if change.created then ∅ else earlier.2
    { record := stored change.record
      standing := if change.created || earlier.1 = .cleared then .cleared else .changed
      slots := change.slots.toList.foldl (fun m e => m.insert e.1 e.2) slots }

def commitOne (l : Ledger) (a : Address) (change : AccountChange) : Ledger :=
  { l with
    accounts := l.accounts.insert a (after (l.before a) change)
    codes := if change.destroyed then l.codes else keepCode l.codes (stored change.record) }

def commit (l : Ledger) (changes : List (Address × AccountChange)) : Ledger :=
  changes.foldl (fun l e => l.commitOne e.1 e.2) l

@[simp] theorem commit_nil (l : Ledger) : l.commit [] = l := rfl

theorem commit_append (l : Ledger) (first second : List (Address × AccountChange)) :
    l.commit (first ++ second) = (l.commit first).commit second :=
  List.foldl_append

theorem account_commitOne_self (l : Ledger) (a : Address) (change : AccountChange) :
    (l.commitOne a change).account a =
      .ok (if change.destroyed then none else some (stored change.record)) := by
  cases h : change.destroyed <;>
    simp only [account, commitOne, OrdMap.get?_insert_self, after, h] <;> grind

theorem account_commitOne_of_ne (l : Ledger) {a b : Address} (change : AccountChange)
    (h : b ≠ a) : (l.commitOne a change).account b = l.account b := by
  simp only [account, commitOne, OrdMap.get?_insert, if_neg h]

end Ledger
end ExecutionTrace
