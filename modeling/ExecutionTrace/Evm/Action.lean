import ExecutionTrace.Address.Derived
import ExecutionTrace.Evm.Activation
import ExecutionTrace.Evm.Precompile

/-!
The beginning and the end of an action: what is checked and moved before its code runs, and what
becomes of its result. What a failed action did to the state is taken back.
-/
namespace ExecutionTrace.Evm

structure Outcome where
  exit : ExitCode
  /-- The gas left; it is given back unless the action failed with an error. -/
  gas : Nat
  refund : Int := 0
  output : Bytes := []
  /-- The address of a creation whose code ran. -/
  created : Option Address := none

namespace Outcome

def givesBack (o : Outcome) : Bool := o.exit.isOk || o.exit.isRevert

def gasBack (o : Outcome) : Nat := if o.givesBack then o.gas else 0

def refundBack (o : Outcome) : Int := if o.exit.isOk then o.refund else 0

end Outcome

/-- What an action begins with: its code runs, or it has its result already. -/
inductive Beginning where
  | running (act : Activation)
  | done (outcome : Outcome)

def depthLimit : Nat := 1024

def codeLimit : Nat := 24576

def Access.Refusal.exit : Access.Refusal → ExitCode
  | outOfFunds => .outOfFunds
  | overflow => .overflowPayment

def Access.Obstacle.exit : Access.Obstacle → ExitCode
  | collision => .createCollision
  | overflow => .overflowPayment

def CallRequest.begin (e : Surroundings) (depth : Nat) (r : CallRequest) : Access Beginning := do
  if depthLimit < depth then return .done { exit := .callTooDeep, gas := r.gas }
  if e.fork.since .prague then discard (Access.loadCode e r.codeAddress)
  else discard (Access.load e r.codeAddress)
  let mark := (← get).mark
  let refusal ← if r.moves then Access.transfer e ⟨r.caller, r.target, r.value⟩ else pure none
  if let some refusal := refusal then
    Access.rollback mark
    return .done { exit := refusal.exit, gas := r.gas }
  if e.fork.isPrecompile r.codeAddress then
    match Precompile.run r.codeAddress r.input r.gas with
    | .given cost output => return .done { exit := .returned, gas := r.gas - cost, output }
    | .refused exit =>
      Access.rollback mark
      return .done { exit, gas := r.gas }
  let (code, _) ← Access.loadCode e r.codeAddress
  if code = [] then return .done { exit := .stop, gas := r.gas }
  return .running
    { code := .ofBytes code, gas := r.gas, contract := r.target, caller := r.caller
      value := r.value, static := r.static, depth, purpose := .call r.start r.length, mark }

def CreateRequest.address (r : CreateRequest) (nonce : UInt64) : Address :=
  match r.salt with
  | some salt => r.caller.createdFrom salt r.code
  | none => r.caller.created nonce

/-- Begins a creation. A creator that cannot count one more transaction creates nothing, which is
no failure. -/
def CreateRequest.begin (e : Surroundings) (depth : Nat) (r : CreateRequest) :
    Access Beginning := do
  if depthLimit < depth then return .done { exit := .callTooDeep, gas := r.gas }
  discard (Access.load e r.caller)
  if ((← get).holding r.caller).record.balance < r.value then
    return .done { exit := .outOfFunds, gas := r.gas }
  let some nonce ← Access.countTransaction r.caller
    | return .done { exit := .returned, gas := r.gas }
  let address := r.address nonce
  discard (Access.load e address)
  let mark := (← get).mark
  if let some obstacle ← Access.createAccount r.caller address r.value then
    Access.rollback mark
    return .done { exit := obstacle.exit, gas := r.gas }
  return .running
    { code := .ofBytes r.code, gas := r.gas, contract := address, caller := r.caller
      value := r.value, static := false, depth, purpose := .creation address, mark }

def codeRefusal (fork : Hardfork) (gas : Nat) (code : Bytes) : Option ExitCode :=
  if fork.since .london ∧ code.head? = some 0xef then some .codeStartsEF
  else if codeLimit < code.length then some .codeSizeLimit
  else if gas < Fee.codeByte * code.length then some .outOfGas
  else none

def Activation.finish (e : Surroundings) (a : Activation) (exit : ExitCode) (output : Bytes) :
    Access Outcome := do
  let created := match a.purpose with
    | .call _ _ => none
    | .creation address => some address
  let failed (exit : ExitCode) : Access Outcome := do
    Access.rollback a.mark
    return { exit, gas := a.gas, refund := a.refund, output, created }
  if !exit.isOk then return ← failed exit
  match a.purpose with
  | .call _ _ => return { exit, gas := a.gas, refund := a.refund, output }
  | .creation address =>
    match codeRefusal e.fork a.gas output with
    | some exit => failed exit
    | none =>
      Access.setCode address output
      let gas := a.gas - Fee.codeByte * output.length
      return { exit := .returned, gas, refund := a.refund, output, created }

/-- Goes on with the result of an action inside: a call, whose output goes to a range of memory, or
a creation. -/
def Activation.resume (a : Activation) (range : Option (Nat × Nat)) (o : Outcome) : Activation :=
  let gas := a.gas + o.gasBack
  let refund := a.refund + o.refundBack
  match range with
  | some (start, length) =>
    { a with
      gas, refund
      stack := (if o.exit.isOk then 1 else 0) :: a.stack
      height := a.height + 1
      returned := o.output
      memory := if o.givesBack then Memory.write a.memory start (o.output.take length)
        else a.memory }
  | none =>
    { a with
      gas, refund
      stack := (if o.exit.isOk then (o.created.getD 0).toWord else 0) :: a.stack
      height := a.height + 1
      returned := if o.exit = .revert then o.output else [] }

end ExecutionTrace.Evm
