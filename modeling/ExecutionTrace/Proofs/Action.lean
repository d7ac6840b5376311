import ExecutionTrace.Proofs.Nesting

/-! Actions as trees, and the streams of events that tell them depth first. -/
namespace ExecutionTrace

/-- Whether an event tells of the operations of an action, and of nothing else. -/
def Event.isDetail : Event → Bool
  | .entered _ | .ended _ | .log _ | .settled _ => false
  | _ => true

abbrev Detail := { e : Event // e.isDetail = true }

/-- What happens inside an action, in order, the actions inside included. The depth in their
entries is not read: it follows from where they stand. -/
inductive Body where
  | done
  | detail (event : Detail) (rest : Body)
  | log (entry : LogEntry) (rest : Body)
  | action (entry : Entry) (inside : Body) (ending : Ending) (rest : Body)

structure Action where
  entry : Entry
  body : Body
  ending : Ending

namespace Body

/-- The events of a body when `opened` actions are open around it. -/
def events (opened : Nat) : Body → List Event
  | done => []
  | detail e rest => e.val :: rest.events opened
  | log l rest => .log l :: rest.events opened
  | action e inside ending rest =>
    .entered { e with depth := opened } ::
      (inside.events (opened + 1) ++ .ended ending :: rest.events opened)

end Body

def Action.events (a : Action) : List Event :=
  .entered { a.entry with depth := 0 } :: (a.body.events 1 ++ [.ended a.ending])

namespace Protocol

private theorem next_detail (s : Protocol) (e : Detail) : s.next e.val = .ok s := by
  rcases e with ⟨e, he⟩
  cases e <;> first | rfl | cases he

private theorem exit_enter {s : Protocol} (h : 0 < s.opened) :
    exit { s with opened := s.opened + 1 } = .ok s := by
  have hne : s.opened ≠ 0 := Nat.ne_of_gt h
  simp [exit, hne]

/-- A body is accepted wherever an action is open, and leaves nothing open. -/
theorem run_body {s : Protocol} (h : 0 < s.opened) (body : Body) (rest : List Event) :
    s.run (body.events s.opened ++ rest) = s.run rest := by
  induction body generalizing s rest with
  | done => rfl
  | detail e tail ih =>
    simp only [Body.events, List.cons_append, run, next_detail]
    exact ih h rest
  | log l tail ih => exact ih h rest
  | action e inside ending tail ihInside ihTail =>
    have henter : s.next (.entered { e with depth := s.opened }) =
        .ok { s with opened := s.opened + 1 } := by
      simp [next, enter, Nat.ne_of_gt h]
    have hinside := ihInside (s := { s with opened := s.opened + 1 }) (Nat.succ_pos _)
      (.ended ending :: (tail.events s.opened ++ rest))
    simp only [Body.events, List.cons_append, List.append_assoc, run, henter]
    rw [hinside, run, next, exit_enter h]
    exact ihTail h rest

theorem run_action (a : Action) : run {} a.events = .ok ⟨0, true⟩ :=
  run_body (s := ⟨1, false⟩) Nat.one_pos a.body [.ended a.ending]

/-- A top action and its settlement are accepted from the start. -/
theorem run_settled_action (a : Action) (o : Settlement) :
    run {} (a.events ++ [.settled o]) = .ok ⟨0, true⟩ := by
  rw [run_append (run_action a)]
  rfl

end Protocol
end ExecutionTrace
