import ExecutionTrace.Failure
import ExecutionTrace.Word

/-!
The events of an execution, in program order: actions are entered and ended like brackets, and
between the two come the operations, storage accesses and logs of the action.
-/
namespace ExecutionTrace

inductive ActionKind where
  | call | callCode | delegateCall | staticCall | create | create2 | selfDestruct
deriving DecidableEq, Repr

namespace ActionKind

def all : List ActionKind :=
  [call, callCode, delegateCall, staticCall, create, create2, selfDestruct]

def name : ActionKind → String
  | call => "CALL"
  | callCode => "CALLCODE"
  | delegateCall => "DELEGATECALL"
  | staticCall => "STATICCALL"
  | create => "CREATE"
  | create2 => "CREATE2"
  | selfDestruct => "SELFDESTRUCT"

def ofName? (text : String) : Option ActionKind := all.find? (·.name = text)

def isCreate : ActionKind → Bool
  | create | create2 => true
  | _ => false

/-- Whether the action has a value at all; a static call has none, not even zero. -/
def carriesValue : ActionKind → Bool
  | staticCall => false
  | _ => true

/-- Whether the action runs foreign code on the storage of its caller. -/
def inCallerContext : ActionKind → Bool
  | delegateCall | callCode => true
  | _ => false

end ActionKind

structure Entry where
  /-- The number of actions that are open before this one. -/
  depth : Nat
  kind : ActionKind
  sender : Address
  /-- Absent for a creation whose address is not known yet. -/
  target : Option Address
  value : Word
  gas : UInt64
  input : Bytes
  /-- The salt of a creation, from which its address follows. -/
  salt : Option Word
deriving DecidableEq

/-- How the innermost open action ended. A creation may name the address it deployed to, or would
have deployed to. -/
inductive Ending where
  | returned (gasLeft : UInt64) (output : Bytes) (created : Option Address)
  | reverted (gasLeft : UInt64) (output : Bytes) (created : Option Address)
  | failed (failure : Failure) (created : Option Address)
deriving DecidableEq

def Ending.created : Ending → Option Address
  | returned _ _ c => c
  | reverted _ _ c => c
  | failed _ c => c

structure OpStart where
  pc : Nat
  opcode : UInt8
  /-- Zero when the source of the events does not sample it. -/
  gas : UInt64
  depth : Nat
deriving DecidableEq

structure LogEntry where
  address : Address
  topics : List Word
  data : Bytes
deriving DecidableEq

/-- The outcome of a transaction, reported once after its top action. -/
structure Settlement where
  success : Bool
  gasUsed : UInt64
  output : Bytes
  logs : List LogEntry
  failure : Option Failure
deriving DecidableEq

inductive Event where
  | entered (entry : Entry)
  | ended (ending : Ending)
  | opStarted (op : OpStart)
  | opGas (gasLeft : UInt64)
  | opFailed (failure : Failure)
  /-- The stack before the operation, top first. -/
  | stack (words : List Word)
  /-- The whole memory of the action before the operation. -/
  | memory (bytes : Bytes)
  /-- A slot that the operation reads or writes, with its value before. -/
  | storage (address : Address) (key value : Word)
  | log (entry : LogEntry)
  | refund (amount : UInt64)
  | settled (outcome : Settlement)
deriving DecidableEq

end ExecutionTrace
