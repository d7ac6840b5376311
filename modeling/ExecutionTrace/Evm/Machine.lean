import ExecutionTrace.Evm.Action
import ExecutionTrace.Evm.Deferred
import ExecutionTrace.Evm.Step
import ExecutionTrace.Recorder

/-!
The machine: the actions of a transaction, each waiting for the one inside it, and the recording of
what happens. A read that fails while an action begins ends everything at once; one that fails in
an instruction ends the action, and everything only when its turn comes.
-/
namespace ExecutionTrace.Evm

structure Machine where
  current : Activation
  /-- The activations that wait, innermost first. -/
  waiting : List Activation
  state : State
  recording : Recording

structure Finished where
  outcome : Outcome
  state : State
  recording : Recording

inductive Progress where
  | next (m : Machine)
  | finished (f : Finished)

def CallForm.scheme : CallForm → CallScheme
  | call => .call
  | callCode => .callCode
  | delegateCall => .delegateCall
  | staticCall => .staticCall

def CallRequest.hook (r : CallRequest) : Hook :=
  .callStart r.form.scheme r.caller r.target r.codeAddress r.value (.ofNat r.gas) r.input

def CreateRequest.hook (r : CreateRequest) : Hook :=
  .createStart r.caller r.salt r.value (.ofNat r.gas) r.code

def Outcome.hook (o : Outcome) : Hook := .finish o.exit (.ofNat o.gas) o.output o.created

namespace Machine

/-- Hands the result of an action to the one that waits for it. A failed read that waits comes
out before that. -/
def handUp (e : Surroundings) (waiting : List Activation) (state : State) (recording : Recording)
    (range : Option (Nat × Nat)) (o : Outcome) : Deferring DbFault Progress := do
  let recording := recording.observe e.ledger.slot o.hook
  match waiting with
  | [] => return .finished ⟨o, state, recording⟩
  | act :: waiting =>
    Deferring.raise
    return .next ⟨act.resume range o, waiting, state, recording⟩

def enter (e : Surroundings) (waiting : List Activation) (state : State) (recording : Recording)
    (hook : Hook) (range : Option (Nat × Nat)) (begin : Access Beginning) :
    Deferring DbFault Progress := do
  let recording := recording.observe e.ledger.slot hook
  match ← MonadExcept.ofExcept (begin state) with
  | (.running act, state) => return .next ⟨act, waiting, state, recording⟩
  | (.done o, state) => handUp e waiting state recording range o

def leave (e : Surroundings) (waiting : List Activation) (r : Running) (recording : Recording)
    (exit : ExitCode) (output : Bytes) : Deferring DbFault Progress := do
  let (o, state) ← MonadExcept.ofExcept (r.act.finish e exit output r.state)
  handUp e waiting state recording r.act.purpose.range? o

def call (e : Surroundings) (waiting : List Activation) (state : State) (recording : Recording)
    (r : CallRequest) : Deferring DbFault Progress :=
  enter e waiting state recording r.hook (some (r.start, r.length))
    (CallRequest.begin e waiting.length r)

def create (e : Surroundings) (waiting : List Activation) (state : State) (recording : Recording)
    (r : CreateRequest) : Deferring DbFault Progress :=
  enter e waiting state recording r.hook none (CreateRequest.begin e waiting.length r)

def tellLog (e : Surroundings) (i : Instruction) (state : State) (recording : Recording) :
    Recording :=
  match i, state.logs with
  | .log _, entry :: _ => recording.observe e.ledger.slot (.log entry)
  | _, _ => recording

/-- Tells the recorder of a self-destruction. It is known by the balance it moved, so one that
changes nothing is told as the move before it, if there was any. -/
def tellDestruction (e : Surroundings) (exit : ExitCode) (state : State) (recording : Recording) :
    Recording :=
  match exit, state.lastMove with
  | .selfDestruct, some m =>
    recording.observe e.ledger.slot (.selfDestruct m.sender m.recipient m.amount)
  | _, _ => recording

def step (e : Surroundings) : Machine → Deferring DbFault Progress
  | ⟨act, waiting, state, recording⟩ => do
    let byte := act.code.byteAt act.pc
    let recording := recording.observe e.ledger.slot
      (.step byte act.pc act.stack act.memory act.contract)
    let i := Instruction.ofByte byte
    match Op.step e i ⟨act, state⟩ with
    | .ok () r => return .next ⟨r.act, waiting, r.state, tellLog e i r.state recording⟩
    | .error (.calls request) r => call e (r.act :: waiting) r.state recording request
    | .error (.creates request) r => create e (r.act :: waiting) r.state recording request
    | .error (.fault cause) r =>
      Deferring.defer cause
      leave e waiting r recording .fatalExternal []
    | .error (.ended exit output) r =>
      leave e waiting r (tellDestruction e exit r.state recording) exit output

/-- Executes up to `fuel` instructions. A machine that is not at its end then has run out of gas,
because every instruction that is followed by another one costs some. -/
def run (e : Surroundings) : (fuel : Nat) → Progress → Deferring DbFault Finished
  | _, .finished f => return f
  | 0, .next m => return ⟨{ exit := .outOfGas, gas := 0 }, m.state, m.recording⟩
  | fuel + 1, .next m => do run e fuel (← step e m)

/-- A number of instructions that no transaction with this much gas exceeds. -/
def fuelFor (gas : Nat) : Nat := 2 * gas + 2

end Machine
end ExecutionTrace.Evm
