import ExecutionTrace.Evm.Transaction
import ExecutionTrace.Tracer
import ExecutionTrace.World.Settled

/-!
Tracing a block. Its transactions run in order; each is executed to its end, its events are fed to
a fresh trace, and then its changes are committed, whether or not the trace came about.
-/
namespace ExecutionTrace

open Evm (Deferring Transaction Execution)

structure BlockEnv where
  number : UInt64 := 0
  timestamp : UInt64 := 0
  coinbase : Address := 0
  baseFee : UInt64 := 0
  gasLimit : UInt64 := 0xffffffffffffffff
  difficulty : Word := 0
  prevRandao : Word := 0
deriving DecidableEq

structure Batch where
  block : BlockEnv
  transactions : List Transaction

structure TxTrace where
  hash : Word
  result : TraceResult

inductive Report where
  | traced (entry : Except TraceError TxTrace)
  | executed (answer : Except TraceError Unit)

namespace Report

def entry? : Report → Option (Except TraceError TxTrace)
  | traced entry => some entry
  | executed _ => none

def error? : Report → Option TraceError
  | traced (.error err) => some err
  | executed (.error err) => some err
  | _ => none

end Report

/-- Executes a transaction above a ledger, under the rules of a hardfork and in a block. A failed
read may wait before it and after it. -/
abbrev Engine := Hardfork → BlockEnv → Ledger → Transaction → Deferring TraceError Execution

/-- An engine for code that keeps to the instructions that `Evm.Instruction` lists. -/
def Engine.evm : Engine := fun fork block ledger t =>
  t.execute { fork, ledger, coinbase := block.coinbase } block.baseFee

/-- What lasts from one transaction to the next. -/
structure Session where
  fork : Hardfork
  block : BlockEnv := {}
  ledger : Ledger
  /-- A failed read that waits for its turn. -/
  deferred : Option DbFault := none

namespace Session

def start (fork : Hardfork) (db : Database) : Session := { fork, ledger := .ofDatabase db }

def facts (s : Session) (t : Transaction) (nonce : UInt64) : TxFacts :=
  { gasPrice := BitVec.ofNat 256 t.gasPrice
    gasLimit := t.gasLimit
    sender := t.sender
    target := t.target
    value := t.value
    input := t.input
    kind := if t.creates then .create else .call
    coinbase := some s.block.coinbase
    baseFee := if s.fork.since .london then Word.ofUInt64 s.block.baseFee else 0
    created := if t.creates then some (t.sender.created nonce) else none
    fork := s.fork }

/-- The trace of an executed transaction. Its view of the world is that of the transaction's start,
with the settlement applied. -/
def replay (s : Session) (o : Options) (t : Transaction) (x : Execution) :
    Except TraceError TxTrace := do
  let facts := s.facts t x.nonce
  let w := World.settled s.ledger.database facts x.outcome
  let tracer ← (← Tracer.start o facts).run w x.events
  return ⟨t.hash, ← tracer.result w⟩

def committed (s : Session) (x : Execution) : Session :=
  { s with ledger := s.ledger.commit x.changes }

/-- Executes a transaction without committing it. The failed read that waits may be another one
afterwards. -/
def execute (engine : Engine) (s : Session) (t : Transaction) :
    Session × Except TraceError Execution :=
  match engine s.fork s.block s.ledger t s.deferred with
  | .error err deferred => ({ s with deferred }, .error err)
  | .ok x deferred => ({ s with deferred }, .ok x)

/-- Executes a transaction, traces it, and commits it even if it could not be traced. -/
def traceTransaction (engine : Engine) (o : Options) (s : Session) (t : Transaction) :
    Session × Except TraceError TxTrace :=
  match s.execute engine t with
  | (s, .error err) => (s, .error err)
  | (s, .ok x) =>
    let traced := s.replay o t x
    (s.committed x, traced)

def executeTransaction (engine : Engine) (s : Session) (t : Transaction) :
    Session × Except TraceError Unit :=
  match s.execute engine t with
  | (s, .error err) => (s, .error err)
  | (s, .ok x) => (s.committed x, .ok ())

def transaction (engine : Engine) (o : Options) (s : Session) (t : Transaction) :
    Session × Report :=
  if o.selects t.hash then
    let (s, entry) := s.traceTransaction engine o t
    (s, .traced entry)
  else
    let (s, answer) := s.executeTransaction engine t
    (s, .executed answer)

def transactions (engine : Engine) (o : Options) (s : Session) :
    List Transaction → Session × List Report
  | [] => (s, [])
  | t :: rest =>
    let (s, report) := s.transaction engine o t
    let (s, reports) := transactions engine o s rest
    (s, report :: reports)

theorem transactions_append (engine : Engine) (o : Options) (s : Session)
    (first second : List Transaction) :
    s.transactions engine o (first ++ second) =
      (((s.transactions engine o first).1.transactions engine o second).1,
        (s.transactions engine o first).2 ++
          ((s.transactions engine o first).1.transactions engine o second).2) := by
  induction first generalizing s with
  | nil => rfl
  | cons t rest ih => simp only [List.cons_append, transactions, ih]

/-- Executes a batch. With a name that no trace has there is a single error, and nothing runs. -/
def run (engine : Engine) (o : Options) (s : Session) (batch : Batch) : Session × List Report :=
  match TracerName.ofText? o.tracer with
  | none => (s, [.traced (.error (.unknownTracer o.tracer))])
  | some _ => transactions engine o { s with block := batch.block } batch.transactions

def trace (engine : Engine) (o : Options) (s : Session) (batch : Batch) :
    Session × List (Except TraceError TxTrace) :=
  let (s, reports) := s.run engine o batch
  (s, reports.filterMap Report.entry?)

end Session

/-- Traces blocks that do not see each other's changes. A read that does not come back spoils the
work on all of them. -/
def traceBlocks (engine : Engine) (db : Database) (fork : Hardfork) (o : Options)
    (batches : List Batch) : Except TraceError (List (List (Except TraceError TxTrace))) :=
  let reports := batches.map fun batch => ((Session.start fork db).run engine o batch).2
  if reports.any (·.any fun r => r.error?.any TraceError.isCrash) then .error .taskFailed
  else .ok (reports.map (·.filterMap Report.entry?))

end ExecutionTrace
