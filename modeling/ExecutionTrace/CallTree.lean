import ExecutionTrace.Frame
import ExecutionTrace.Options
import ExecutionTrace.TxFacts

/-!
The call tree of a transaction, built from its events. The top frame takes gas, output and error
from the settlement, since they are final only then.
-/
namespace ExecutionTrace

namespace CallTree

structure Config where
  onlyTopCall : Bool := false
  withLog : Bool := false
deriving DecidableEq

def setting (fields : List (String × Json)) (key : String) : Option Bool :=
  match fields.find? (·.1 = key) with
  | none => some false
  | some (_, .bool b) => some b
  | some _ => none

def asBool : Json → Option Bool
  | .bool b => some b
  | _ => none

/-- The settings of an object, or of an array of at most two truth values. -/
def Config.ofJson? : Json → Option Config
  | .obj fields => do
    return { onlyTopCall := ← setting fields "onlyTopCall", withLog := ← setting fields "withLog" }
  | .arr [] => some {}
  | .arr [top] => do return { onlyTopCall := ← asBool top }
  | .arr [top, log] => do return { onlyTopCall := ← asBool top, withLog := ← asBool log }
  | _ => none

/-- The settings in force: what the options say themselves or in their configuration. A
configuration that makes no sense says nothing. -/
def Config.ofOptions (o : Options) : Config :=
  let inner := (o.config.bind Config.ofJson?).getD {}
  { onlyTopCall := o.onlyTopCall || inner.onlyTopCall
    withLog := o.withLog || inner.withLog }

end CallTree

structure CallTree where
  config : CallTree.Config
  facts : TxFacts
  stack : Nesting Frame

namespace CallTree

def start (config : Config) (facts : TxFacts) : CallTree :=
  ⟨config, facts, Nesting.start config.onlyTopCall⟩

/-- Takes in one event. A rejected event may still have told the facts of the transaction. -/
def step (t : CallTree) : Event → CallTree × Except TraceError Unit
  | .entered e =>
    let facts := if e.depth = 0 then t.facts.withTopEntry e else t.facts
    match t.stack.enter e.depth (.ofEntry e) with
    | (stack, .ok _) => ({ t with facts, stack }, .ok ())
    | (stack, .error v) => ({ t with facts, stack }, .error (.violation v))
  | .ended ending =>
    match t.stack.close (·.withEnding ending) with
    | (stack, .error v) => ({ t with stack }, .error (.violation v))
    | (stack, .ok ()) =>
      let facts :=
        match ending with
        | .returned _ _ (some created) =>
          if stack.opened = 0 ∧ t.facts.isCreation then { t.facts with created := some created }
          else t.facts
        | _ => t.facts
      ({ t with facts, stack }, .ok ())
  | .log l =>
    let logged := { t with stack := t.stack.modifyCurrent (·.withLog l) }
    (if t.config.withLog then logged else t, .ok ())
  | .settled o =>
    if t.stack.opened ≠ 0 then (t, .error (.violation (.settledOpen t.stack.opened)))
    else ({ t with facts := t.facts.withSettlement o }, .ok ())
  | _ => (t, .ok ())

/-- The frame of a transaction whose top action was never seen. -/
def bareTop (f : TxFacts) : Frame :=
  .start f.kind f.sender f.recipient f.value f.gasLimit f.input

def settleTop (f : TxFacts) (top : Frame) : Frame :=
  let top := { top with gasUsed := min f.gasUsed top.gas, error := none, revertReason := none }
  match f.failure with
  | some failure => top.withFailure failure f.output
  | none =>
    { top with
      output := f.output
      target := if top.kind.isCreate then top.target.or f.created else top.target }

def output (t : CallTree) : Except TraceError Frame :=
  if t.stack.opened ≠ 0 then .error (.violation (.treeOpen t.stack.opened))
  else
    let top := t.stack.root.getD (bareTop t.facts)
    let top := if 0 < t.facts.gasLimit then { top with gas := t.facts.gasLimit } else top
    let top := if t.facts.settled then settleTop t.facts top else top
    .ok (if t.config.withLog then top.pruneLogs false else top)

end CallTree
end ExecutionTrace
