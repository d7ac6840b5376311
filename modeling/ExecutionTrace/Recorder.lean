import Std.Data.HashMap
import ExecutionTrace.Event
import ExecutionTrace.Opcode
import ExecutionTrace.World

/-!
Events from the hooks of a running machine. Calls, creations and self-destructions become actions,
and each operation with operands of interest is followed by snapshots of what it will read.
-/
namespace ExecutionTrace

inductive CallScheme where
  | call | callCode | delegateCall | staticCall | extCall | extDelegateCall | extStaticCall
deriving DecidableEq, Repr

def CallScheme.kind : CallScheme → ActionKind
  | callCode => .callCode
  | delegateCall => .delegateCall
  | staticCall => .staticCall
  | _ => .call

/-- What the machine reports while it runs. -/
inductive Hook where
  | callStart (scheme : CallScheme) (caller target codeAddress : Address) (value : Word)
      (gas : UInt64) (input : Bytes)
  | createStart (caller : Address) (salt : Option Word) (value : Word) (gas : UInt64)
      (input : Bytes)
  | finish (exit : ExitCode) (gasLeft : UInt64) (output : Bytes) (created : Option Address)
  /-- A contract destroys itself in favour of another account. -/
  | selfDestruct (contract beneficiary : Address) (value : Word)
  | log (entry : LogEntry)
  /-- The operation at `pc` is about to run on the storage of `target`; the stack is given top
  first. -/
  | step (opcode : UInt8) (pc : Nat) (stack : List Word) (memory : ByteArray) (target : Address)

structure Recorder where
  depth : Nat := 0
  /-- The slots written so far. A write of a reverted action stays, since only the first touch of
  a slot matters. -/
  writes : Std.HashMap (Address × Word) Word := ∅
  /-- The failure that ended the top action, if it ended with one. -/
  topFailure : Option Failure := none

namespace Recorder

def endingOf (exit : ExitCode) (gasLeft : UInt64) (output : Bytes) (created : Option Address) :
    Ending :=
  if exit.isOk then .returned gasLeft output created
  else if exit.isRevert then .reverted gasLeft output created
  else .failed exit.failure created

def failureOf : Ending → Option Failure
  | .returned _ _ _ => none
  | .reverted _ _ _ => some .revert
  | .failed failure _ => some failure

/-- The entry of a call. A delegated call acts for the contract that makes it, and names the
account whose code it borrows. -/
def callEntry (depth : Nat) (scheme : CallScheme) (caller target codeAddress : Address)
    (value : Word) (gas : UInt64) (input : Bytes) : Entry :=
  { depth, value, gas, input
    kind := scheme.kind
    sender := if scheme.kind = .delegateCall then target else caller
    target := some (if scheme.kind.inCallerContext then codeAddress else target)
    salt := none }

def createEntry (depth : Nat) (caller : Address) (salt : Option Word) (value : Word)
    (gas : UInt64) (input : Bytes) : Entry :=
  { depth, value, gas, input, salt
    kind := if salt.isSome then .create2 else .create
    sender := caller
    target := none }

/-- The value of a slot before the current operation: the last one written in this transaction,
else what the database holds, or zero when it cannot be read. -/
def slotBefore (slot : Address → Word → Except DbFault Word) (r : Recorder) (a : Address)
    (key : Word) : Word :=
  match r.writes[(a, key)]? with
  | some value => value
  | none =>
    match slot a key with
    | .ok value => value
    | .error _ => 0

/-- The storage access of an operation, if it has its key, and the recorder after it. -/
def storageEvents (slot : Address → Word → Except DbFault Word) (r : Recorder) (opcode : UInt8)
    (stack : List Word) (target : Address) : List Event × Recorder :=
  if !Opcode.isStorage opcode then ([], r)
  else
    match stack with
    | [] => ([], r)
    | key :: rest =>
      let access := Event.storage target key (r.slotBefore slot target key)
      match Opcode.isStore opcode, rest with
      | true, value :: _ => ([access], { r with writes := r.writes.insert (target, key) value })
      | _, _ => ([access], r)

/-- The events that a hook makes, in order, and the recorder after it. `slot` reads storage as it
was before the transaction. -/
def observe (slot : Address → Word → Except DbFault Word) (r : Recorder) :
    Hook → List Event × Recorder
  | .callStart scheme caller target codeAddress value gas input =>
    ([.entered (callEntry r.depth scheme caller target codeAddress value gas input)],
      { r with depth := r.depth + 1 })
  | .createStart caller salt value gas input =>
    ([.entered (createEntry r.depth caller salt value gas input)], { r with depth := r.depth + 1 })
  | .finish exit gasLeft output created =>
    let ending := endingOf exit gasLeft output created
    let depth := r.depth - 1
    ([.ended ending],
      { r with depth, topFailure := if depth = 0 then failureOf ending else r.topFailure })
  | .selfDestruct contract beneficiary value =>
    ([.entered
        { depth := r.depth, kind := .selfDestruct, sender := contract, target := some beneficiary
          value, gas := 0, input := [], salt := none },
      .ended (.returned 0 [] none)], r)
  | .log entry => ([.log entry], r)
  | .step opcode pc stack memory target =>
    let started := Event.opStarted { pc, opcode, gas := 0, depth := r.depth - 1 }
    if !Opcode.isTraced opcode then ([started], r)
    else
      let snapshot := if Opcode.readsMemory opcode then [Event.memory memory.data.toList] else []
      let (accesses, r) := r.storageEvents slot opcode stack target
      (started :: (snapshot ++ .stack stack :: accesses), r)

end Recorder

structure Recording where
  recorder : Recorder := {}
  /-- The events so far, latest first. -/
  latestFirst : List Event := []

namespace Recording

def events (r : Recording) : List Event := r.latestFirst.reverse

def observe (slot : Address → Word → Except DbFault Word) (r : Recording) (hook : Hook) :
    Recording :=
  let (events, recorder) := r.recorder.observe slot hook
  { recorder, latestFirst := events.reverseAux r.latestFirst }

def observeAll (slot : Address → Word → Except DbFault Word) (r : Recording) (hooks : List Hook) :
    Recording :=
  hooks.foldl (observe slot) r

def drained (r : Recording) : Recording := { r with latestFirst := [] }

end Recording
end ExecutionTrace
