import ExecutionTrace.Address.Checksum

/-!
World state that can only be read: a database of account records, and the view of it that traces
consult. Every read may fail, and a failed read names the account it was for.
-/
namespace ExecutionTrace

inductive DbFault where
  | accountUnavailable | codeUnavailable | storageUnavailable | noSuchCode
  /-- The read did not come back at all. -/
  | crash
deriving DecidableEq, Repr

def DbFault.message : DbFault → String
  | accountUnavailable => "account unavailable"
  | codeUnavailable => "code unavailable"
  | storageUnavailable => "storage unavailable"
  | noSuchCode => "no such code"
  | crash => "read did not return"

structure AccountRecord where
  balance : Word
  nonce : UInt64
  codeHash : Word
  /-- The code, when it is held with the account instead of under its hash. -/
  code : Option Bytes
deriving DecidableEq

/-- A database that answers reads and never changes. -/
structure Database where
  /-- The record of an account, or nothing when there is no such account. -/
  account : Address → Except DbFault (Option AccountRecord)
  code : Word → Except DbFault Bytes
  storage : Address → Word → Except DbFault Word

structure Database.Answers (db : Database) : Prop where
  account : ∀ a, ∃ record, db.account a = .ok record
  code : ∀ hash, ∃ bytes, db.code hash = .ok bytes
  storage : ∀ a key, ∃ value, db.storage a key = .ok value

inductive ReadFault where
  | account (address : Address) (cause : DbFault)
  | code (address : Address) (cause : DbFault)
  | slot (address : Address) (key : Word) (cause : DbFault)
deriving DecidableEq, Repr

namespace ReadFault

def cause : ReadFault → DbFault
  | account _ c => c
  | code _ c => c
  | slot _ _ c => c

def message : ReadFault → String
  | account a c => "Account access error: " ++ a.checksummed ++ ": " ++ c.message
  | code a c => "Account access error: code of " ++ a.checksummed ++ ": " ++ c.message
  | slot a k c =>
    "Slot access error: " ++ a.checksummed ++ " slot " ++ Hex.word k ++ ": " ++ c.message

end ReadFault

structure World where
  balance : Address → Except ReadFault Word
  nonce : Address → Except ReadFault UInt64
  code : Address → Except ReadFault Bytes
  storage : Address → Word → Except ReadFault Word
  occupied : Address → Except ReadFault Bool

/-- Every account can be read. Nothing is said of slots. -/
structure World.Readable (w : World) : Prop where
  occupied : ∀ a, ∃ b, w.occupied a = .ok b
  balance : ∀ a, ∃ b, w.balance a = .ok b
  nonce : ∀ a, ∃ n, w.nonce a = .ok n
  code : ∀ a, ∃ c, w.code a = .ok c

namespace World

def blank : World where
  balance _ := .ok 0
  nonce _ := .ok 0
  code _ := .ok []
  storage _ _ := .ok 0
  occupied _ := .ok false

theorem readable_blank : blank.Readable :=
  ⟨fun _ => ⟨_, rfl⟩, fun _ => ⟨_, rfl⟩, fun _ => ⟨_, rfl⟩, fun _ => ⟨_, rfl⟩⟩

def codeOf (db : Database) (a : Address) (r : AccountRecord) : Except ReadFault Bytes :=
  match r.code with
  | some code => .ok code
  | none =>
    if r.codeHash = Keccak.ofEmpty ∨ r.codeHash = 0 then .ok []
    else (db.code r.codeHash).mapError (.code a)

/-- The view of a database as it is. An account that does not exist reads as empty. -/
def ofDatabase (db : Database) : World :=
  let record (a : Address) := (db.account a).mapError (ReadFault.account a)
  { balance a := return ((← record a).map (·.balance)).getD 0
    nonce a := return ((← record a).map (·.nonce)).getD 0
    code a := do
      match ← record a with
      | none => return []
      | some r => codeOf db a r
    storage a k := (db.storage a k).mapError (.slot a k)
    occupied a := return (← record a).isSome }

end World
end ExecutionTrace
