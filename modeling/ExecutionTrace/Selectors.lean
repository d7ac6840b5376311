import ExecutionTrace.Frame.Json
import ExecutionTrace.Opcode
import ExecutionTrace.OrdMap
import ExecutionTrace.PendingOp
import ExecutionTrace.TxFacts

/-!
A histogram of the functions called. Inner calls are counted from the operands of their
operations, so a call that the machine then refuses counts too.
-/
namespace ExecutionTrace

structure Selectors where
  facts : TxFacts
  /-- The counts of the inner calls. -/
  counts : OrdMap String Nat
  scopes : Nesting Unit
  op : PendingOp

instance : Adopts Unit where
  adopt _ _ := ()

namespace Selectors

def start (facts : TxFacts) : Selectors := ⟨facts, ∅, Nesting.start false, {}⟩

def width : Nat := 4

def key (name : Bytes) (rest : Nat) : String := Hex.ofBytes name ++ "-" ++ toString rest

def bump (counts : OrdMap String Nat) (key : String) : OrdMap String Nat :=
  counts.insert key ((counts.get? key).getD 0 + 1)

/-- The key of the call that operands describe; none for a precompiled contract or a short
input. -/
def operandKey (precompiled : Address → Bool) (memory : Bytes) (words : List Word)
    (input : Nat × Nat) : Except OperandFault (Option String) := do
  let target := (← Operand.peek words 1).toAddress
  if precompiled target then return none
  let length ← Operand.size (← Operand.peek words input.2)
  if length < width then return none
  let name ← Operand.slice memory (← Operand.peek words input.1) (BitVec.ofNat 256 width)
  return some (key name (length - width))

/-- Takes in the stack of the pending operation. Operands that cannot be decoded count nothing. -/
def stackStep (s : Selectors) (words : List Word) : Selectors :=
  match s.op.opcode.bind Opcode.callInput? with
  | none => s
  | some input =>
    match operandKey s.facts.precompiled s.op.memory words input with
    | .ok (some key) => { s with counts := bump s.counts key, op := s.op.clear }
    | _ => { s with op := s.op.clear }

def step (s : Selectors) : Event → Selectors × Except TraceError Unit
  | .entered e =>
    let facts := if e.depth = 0 then s.facts.withTopEntry e else s.facts
    match s.scopes.enter e.depth () with
    | (scopes, .ok _) => ({ s with facts, scopes }, .ok ())
    | (scopes, .error v) => ({ s with facts, scopes }, .error (.violation v))
  | .ended _ =>
    match s.scopes.close id with
    | (scopes, .ok ()) => ({ s with scopes }, .ok ())
    | (scopes, .error v) => ({ s with scopes }, .error (.violation v))
  | .opStarted op => ({ s with op := .start op }, .ok ())
  | .memory bytes => ({ s with op := s.op.withMemory bytes }, .ok ())
  | .stack words => (stackStep s words, .ok ())
  | .settled o =>
    if s.scopes.opened ≠ 0 then (s, .error (.violation (.settledOpen s.scopes.opened)))
    else ({ s with facts := s.facts.withSettlement o }, .ok ())
  | _ => (s, .ok ())

/-- The key of the top call; none for a creation, a precompiled contract or a short input. -/
def topKey (f : TxFacts) : Option String :=
  match f.target with
  | some target =>
    if f.isCreation || f.precompiled target || f.input.length < width then none
    else some (key (f.input.take width) (f.input.length - width))
  | none => none

def output (s : Selectors) : OrdMap String Nat :=
  match topKey s.facts with
  | some key => bump s.counts key
  | none => s.counts

def toJson (counts : OrdMap String Nat) : Json :=
  .obj (counts.toList.map fun (key, n) => (key, .int n))

end Selectors
end ExecutionTrace
