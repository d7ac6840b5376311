import ExecutionTrace.Proofs.CallTree.Report

/-! The logs of a call tree in the order in which they were written. A frame holds its logs apart
from the frames inside it, and the position of a log tells between which of those it belongs. -/
namespace ExecutionTrace

namespace Frame

mutual

def walk : Frame → List LogEntry
  | ⟨_, _, _, _, _, _, _, _, _, calls, logs, _⟩ => walkFrom logs 0 calls

/-- The logs from the point on where `walked` frames inside a frame are done, of the frames that
follow and of the frame itself. A log comes after exactly as many frames as its position says; one
with a position beyond the last of them does not come at all. -/
def walkFrom (logs : List FrameLog) (walked : Nat) : List Frame → List LogEntry
  | [] => (logs.filter (·.position.toNat = walked)).map (·.entry)
  | call :: calls =>
    (logs.filter (·.position.toNat = walked)).map (·.entry) ++
      (walk call ++ walkFrom logs (walked + 1) calls)

end

private theorem walkFrom_of_position_lt {log : FrameLog} {walked : Nat}
    (h : log.position.toNat < walked) (logs : List FrameLog) (calls : List Frame) :
    walkFrom (log :: logs) walked calls = walkFrom logs walked calls := by
  induction calls generalizing walked with
  | nil =>
    have hother : log.position.toNat ≠ walked := Nat.ne_of_lt h
    simp [walkFrom, hother]
  | cons call calls ih =>
    have hother : log.position.toNat ≠ walked := Nat.ne_of_lt h
    simp [walkFrom, hother, ih (Nat.lt_succ_of_lt h)]

private theorem walkFrom_of_position_eq {log : FrameLog} {walked : Nat}
    (h : log.position.toNat = walked) (logs : List FrameLog) (calls : List Frame) :
    walkFrom (log :: logs) walked calls = log.entry :: walkFrom logs walked calls := by
  have hpassed : log.position.toNat < walked + 1 := by omega
  cases calls with
  | nil => simp [walkFrom, h]
  | cons call calls => simp [walkFrom, h, walkFrom_of_position_lt hpassed]

private theorem walkFrom_cons {logs : List FrameLog} {walked : Nat}
    (h : ∀ log ∈ logs, walked < log.position.toNat) (call : Frame) (calls : List Frame) :
    walkFrom logs walked (call :: calls) = call.walk ++ walkFrom logs (walked + 1) calls := by
  have hnone : logs.filter (·.position.toNat = walked) = [] := by
    rw [List.filter_eq_nil_iff]
    intro log hlog
    simpa using Nat.ne_of_gt (h log hlog)
  rw [walkFrom, hnone]
  rfl

end Frame

def Event.log? : Event → Option LogEntry
  | .log entry => some entry
  | _ => none

namespace Body

/-- The logs of a body in the order in which they are written, each with whether one of the
actions it was written in fails. -/
def written (failed : Bool) : Body → List (LogEntry × Bool)
  | done => []
  | detail _ rest => rest.written failed
  | log l rest => (l, failed) :: rest.written failed
  | action _ inside ending rest =>
    inside.written (failed || !ending.succeeded) ++ rest.written failed

/-- The logs of a body for which no action around them fails. -/
def lasting (failed : Bool) (body : Body) : List LogEntry :=
  ((body.written failed).filter (!·.2)).map (·.1)

private theorem map_fst_written (failed : Bool) (opened : Nat) (body : Body) :
    (body.written failed).map (·.1) = (body.events opened).filterMap Event.log? := by
  induction body generalizing failed opened with
  | done => rfl
  | detail e rest ih =>
    have hnone : e.val.log? = none := by
      rcases e with ⟨e, he⟩
      cases e <;> first | rfl | cases he
    rw [written, events, List.filterMap_cons, hnone, ih failed opened]
  | log l rest ih =>
    rw [written, List.map_cons, ih failed opened]
    rfl
  | action e inside ending rest ihInside ihRest =>
    rw [written, List.map_append, ihInside _ (opened + 1), ihRest _ opened, events,
      List.filterMap_cons_none rfl, List.filterMap_append, List.filterMap_cons_none rfl]

private theorem le_position_of_mem_logs (body : Body) (before : Nat)
    (h : before + body.count < UInt64.size) :
    ∀ log ∈ body.logs before, before ≤ log.position.toNat := by
  induction body generalizing before with
  | done => intro log hlog; cases hlog
  | detail _ rest ih => exact ih before h
  | log l rest ih =>
    intro log hlog
    rcases List.mem_cons.mp hlog with rfl | hlog
    · have hfits : before < UInt64.size := by omega
      exact Nat.le_of_eq (UInt64.toNat_ofNat_of_lt' hfits).symm
    · exact ih before h log hlog
  | action e inside ending rest ihInside ihRest =>
    intro log hlog
    rw [count] at h
    have hrest := ihRest (before + 1) (by omega) log hlog
    omega

/-- The walk of the frames of a body and of its own logs gives the logs that last, in the order in
which they were written. -/
private theorem walkFrom_frames (keep : Bool) (body : Body) (before : Nat)
    (h : before + body.count < UInt64.size) :
    Frame.walkFrom (if keep then body.logs before else []) before (body.frames keep) =
      body.lasting (!keep) := by
  induction body generalizing keep before with
  | done => cases keep <;> rfl
  | detail _ rest ih => exact ih keep before h
  | log l rest ih =>
    have hposition : (UInt64.ofNat before).toNat = before :=
      UInt64.toNat_ofNat_of_lt' (by rw [count] at h; omega)
    have hrest := ih keep before h
    cases keep with
    | false => exact hrest
    | true =>
      rw [if_pos rfl] at hrest ⊢
      rw [logs, frames, Frame.walkFrom_of_position_eq hposition, hrest]
      rfl
  | action e inside ending rest ihInside ihRest =>
    rw [count] at h
    have hafter : before + 1 + rest.count < UInt64.size := by omega
    have hlater : ∀ log ∈ (if keep then rest.logs (before + 1) else []),
        before < log.position.toNat := by
      intro log hlog
      cases keep with
      | false => cases hlog
      | true => exact le_position_of_mem_logs rest (before + 1) hafter log hlog
    have hinside := ihInside (keep && ending.succeeded) 0 (by omega)
    have hfailed : (!(keep && ending.succeeded)) = (!keep || !ending.succeeded) := by
      cases keep <;> rfl
    rw [logs, frames, Frame.walkFrom_cons hlater, ihRest keep _ hafter, Entry.report, Frame.walk,
      hinside, hfailed]
    simp [lasting, written]

end Body

/-- The logs of a settled action in the order in which they are written, each with whether one of
the actions it was written in fails. Whether the top action fails is for the settlement to say. -/
def Action.written (a : Action) (o : Settlement) : List (LogEntry × Bool) :=
  a.body.written (o.failure.isSome || !o.success)

private theorem Action.map_fst_written (a : Action) (o : Settlement) :
    (a.written o).map (·.1) = (a.events ++ [Event.settled o]).filterMap Event.log? := by
  rw [written, Body.map_fst_written _ 1, events, List.cons_append, List.append_assoc,
    List.filterMap_cons_none rfl, List.filterMap_append]
  exact (List.append_nil _).symm

theorem Action.walk_tree {a : Action} (h : a.body.count < UInt64.size) (f : TxFacts)
    (o : Settlement) :
    (a.tree true f o).walk = ((a.written o).filter (!·.2)).map (·.1) := by
  have hkeep : (true && o.verdict.isNone) = !(o.failure.isSome || !o.success) := by
    rcases o with ⟨_ | _, _, _, _, _ | _⟩ <;> rfl
  have hwalk := Body.walkFrom_frames (true && o.verdict.isNone) a.body 0
    (by rwa [Nat.zero_add])
  rw [tree, Entry.report, Frame.walk, hwalk, hkeep, Bool.not_not]
  rfl

namespace CallTree

/-- A call tree with logs gives back, when it is walked, the logs of the events that no failed
action encloses: all of them, each as it was written, in the order of the events. The number of
actions is that of frames in a memory with addresses of 64 bits, where positions are exact. -/
theorem run_action_logs (w : World) (f : TxFacts) {a : Action} (h : a.body.count < UInt64.size)
    (o : Settlement) :
    ∃ t top, (Tracer.calls (.start { withLog := true } f)).run w (a.events ++ [.settled o]) =
        .ok (.calls t) ∧
      t.output = .ok top ∧
      (a.written o).map (·.1) = (a.events ++ [Event.settled o]).filterMap Event.log? ∧
      top.walk = ((a.written o).filter (!·.2)).map (·.1) :=
  ⟨_, a.tree true f o, run_events w { withLog := true } rfl f a o, output_settled true f a o,
    a.map_fst_written o, Action.walk_tree h f o⟩

private def logged (n : Nat) : LogEntry := ⟨BitVec.ofNat 160 n, [], []⟩

private def inner : Entry :=
  { depth := 0, kind := .call, sender := 2, target := some 3, value := 0, gas := 100, input := []
    salt := none }

/-- A call that writes between two calls, of which the first succeeds and has a failed one inside,
and the second runs out of gas. -/
private def loggingAction : Action where
  entry := { inner with sender := 1, target := some 2 }
  body :=
    .log (logged 1) <|
    .action inner
      (.log (logged 2) <|
        .action inner (.log (logged 3) .done) (.reverted 5 [] none) <|
        .log (logged 4) .done)
      (.returned 10 [] none) <|
    .log (logged 5) <|
    .action inner (.log (logged 6) .done) (.failed .outOfGas none) <|
    .log (logged 7) .done
  ending := .returned 20 [] none

theorem logs_around_failed_calls :
    loggingAction.body.count < UInt64.size ∧
      ∃ t top, (Tracer.calls (.start { withLog := true } {})).run .blank
          (loggingAction.events ++ [.settled ⟨true, 80, [], [], none⟩]) = .ok (.calls t) ∧
        t.output = .ok top ∧ top.walk = [logged 1, logged 2, logged 4, logged 5, logged 7] := by
  have hcount : loggingAction.body.count < UInt64.size := by decide
  obtain ⟨t, top, hrun, houtput, _, hwalk⟩ :=
    run_action_logs .blank {} hcount ⟨true, 80, [], [], none⟩
  exact ⟨hcount, t, top, hrun, houtput, hwalk⟩

end CallTree
end ExecutionTrace
