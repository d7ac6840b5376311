import ExecutionTrace.Operand
import ExecutionTrace.Text.Escaped
import ExecutionTrace.World

/-!
Why a trace is not made. A failure of the traced transaction itself is none of these: it is part
of the trace.
-/
namespace ExecutionTrace

inductive Violation where
  /-- An action is entered at a depth other than the number of open actions. -/
  | entryDepth (depth opened : Nat)
  | secondTop
  | unmatchedEnding
  | settledOpen (opened : Nat)
  | treeOpen (opened : Nat)
deriving DecidableEq, Repr

def Violation.message : Violation → String
  | entryDepth depth opened =>
    "action entered at depth " ++ toString depth ++ " while " ++ toString opened ++
      " actions are open"
  | secondTop => "second top-level action in one transaction"
  | unmatchedEnding => "action terminated without a matching entry"
  | settledOpen opened =>
    "transaction settled with " ++ toString opened ++ " actions still open"
  | treeOpen opened =>
    "call tree requested with " ++ toString opened ++ " actions still open"

inductive Rejection where
  /-- The balance does not cover gas and value. -/
  | lackOfFunds (balance fee : Nat)
  /-- The gas limit does not cover what every such transaction costs. -/
  | intrinsicGas (cost limit : Nat)
  /-- The gas limit does not cover the least charge for the input. -/
  | gasFloor (floor limit : Nat)
  | initCodeSize
  /-- Gas and value together exceed the range of amounts. -/
  | paymentOverflow
  | database (fault : DbFault)
deriving DecidableEq, Repr

def Rejection.message : Rejection → String
  | lackOfFunds balance fee =>
    "transaction validation error: lack of funds (" ++ toString balance ++ ") for max fee (" ++
      toString fee ++ ")"
  | intrinsicGas cost limit =>
    "transaction validation error: call gas cost (" ++ toString cost ++
      ") exceeds the gas limit (" ++ toString limit ++ ")"
  | gasFloor floor limit =>
    "transaction validation error: gas floor (" ++ toString floor ++
      ") exceeds the gas limit (" ++ toString limit ++ ")"
  | initCodeSize => "transaction validation error: create initcode size limit"
  | paymentOverflow => "transaction validation error: overflow payment in transaction"
  | database fault => "database error: " ++ fault.message

inductive TraceError where
  | unknownTracer (name : String)
  | invalidOptions
  | operand (fault : OperandFault)
  | rejected (hash : Word) (cause : Rejection)
  | unreadable (fault : ReadFault)
  /-- The work on a block did not come to an end. -/
  | taskFailed
  /-- The events are not nested as actions are. -/
  | violation (cause : Violation)
deriving DecidableEq, Repr

namespace TraceError

def message : TraceError → String
  | unknownTracer name => "Invalid tracer configuration: unknown tracer: " ++ Text.quoted name
  | invalidOptions => "Invalid tracer configuration: invalid trace options"
  | operand fault => "Failed to decode operand: " ++ fault.message
  | rejected hash cause =>
    "Error during execution: Transaction execution failed: " ++ Hex.word hash ++ ": " ++
      cause.message
  | unreadable fault => "Error during execution: " ++ fault.message
  | taskFailed => "Error during execution: Trace task failed"
  | violation cause => "Execution event protocol violation: " ++ cause.message

/-- Whether the error is a read that did not come back. -/
def isCrash : TraceError → Bool
  | rejected _ (.database .crash) => true
  | unreadable fault => fault.cause = .crash
  | _ => false

end TraceError
end ExecutionTrace
