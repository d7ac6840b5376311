import ExecutionTrace.CallTree
import ExecutionTrace.Prestate.Json
import ExecutionTrace.Selectors

/-!
The traces that can be asked for by name, and what all of them have in common: they take in events
one at a time and can be asked for a result at any time.
-/
namespace ExecutionTrace

inductive TracerName where
  | selectors | calls | prestate
deriving DecidableEq, Repr

namespace TracerName

def all : List TracerName := [selectors, calls, prestate]

def text : TracerName → String
  | selectors => "4byteTracer"
  | calls => "callTracer"
  | prestate => "prestateTracer"

def ofText? (t : String) : Option TracerName := all.find? (·.text = t)

end TracerName

inductive Tracer where
  | calls (t : CallTree)
  | prestate (p : Prestate)
  | selectors (s : Selectors)

inductive TraceResult where
  | calls (top : Frame)
  | prestate (accounts : Accounts)
  | selectors (counts : OrdMap String Nat)

/-- A finished trace as a JSON value, which does not say of which kind it is. -/
def TraceResult.toJson : TraceResult → Json
  | calls top => top.toJson
  | prestate accounts => Accounts.toJson accounts
  | selectors counts => Selectors.toJson counts

namespace Tracer

def start (o : Options) (facts : TxFacts) : Except TraceError Tracer :=
  match TracerName.ofText? o.tracer with
  | some .calls => .ok (.calls (.start (.ofOptions o) facts))
  | some .prestate => .ok (.prestate (.start facts))
  | some .selectors => .ok (.selectors (.start facts))
  | none => .error (.unknownTracer o.tracer)

def name : Tracer → TracerName
  | calls _ => .calls
  | prestate _ => .prestate
  | selectors _ => .selectors

def facts : Tracer → TxFacts
  | calls t => t.facts
  | prestate p => p.facts
  | selectors s => s.facts

/-- Takes in one event; what was changed before a failure stays. -/
def step (w : World) (t : Tracer) (e : Event) : Tracer × Except TraceError Unit :=
  match t with
  | calls t => let (t, answer) := t.step e; (.calls t, answer)
  | prestate p => let (p, answer) := p.step w e; (.prestate p, answer)
  | selectors s => let (s, answer) := s.step e; (.selectors s, answer)

/-- Takes in events up to the first that is not accepted. -/
def run (w : World) (t : Tracer) : List Event → Except TraceError Tracer
  | [] => .ok t
  | e :: rest =>
    match t.step w e with
    | (t, .ok ()) => run w t rest
    | (_, .error err) => .error err

def result (w : World) : Tracer → Except TraceError TraceResult
  | calls t => t.output.map .calls
  | prestate p => (p.output w).map .prestate
  | selectors s => .ok (.selectors s.output)

end Tracer
end ExecutionTrace
