import ExecutionTrace.Tracer
import ExecutionTrace.Proofs.Action

/-! The call tree that an action should have, read off the action itself: frames by recursion on
the tree, without a stack. The call tree built from the events is this one. -/
namespace ExecutionTrace

namespace Ending

def succeeded : Ending → Bool
  | returned _ _ _ => true
  | _ => false

/-- The gas an action has used. More gas left than there was counts as none used. -/
def gasUsed (gas : UInt64) : Ending → UInt64
  | returned left _ _ => UInt64.ofNat (gas.toNat - left.toNat)
  | reverted left _ _ => UInt64.ofNat (gas.toNat - left.toNat)
  | failed _ _ => gas

def data : Ending → Bytes
  | returned _ output _ => output
  | reverted _ output _ => output
  | failed _ _ => []

def errorText : Ending → Option String
  | returned _ _ _ => none
  | reverted _ _ _ => some Failure.revert.message
  | failed failure _ => some failure.message

def reason : Ending → Option String
  | reverted _ output _ => RevertReason.decode output
  | _ => none

theorem isSome_errorText (ending : Ending) : ending.errorText.isSome = !ending.succeeded := by
  cases ending <;> rfl

end Ending

namespace Entry

def saltedTarget (e : Entry) : Option Address :=
  if e.kind = .create2 then e.salt.map fun salt => e.sender.createdFrom salt e.input else none

theorem entryTarget_eq (e : Entry) : Frame.entryTarget e = e.target.or e.saltedTarget := by
  unfold Frame.entryTarget saltedTarget
  rcases e with ⟨_, kind, _, target, _, _, _, salt⟩
  cases target <;> cases salt <;> cases kind <;> rfl

/-- The account an ended action ran against. A creation that failed has none; one that succeeded
has the address it reports, else the one its entry names, else the one its salt fixes. -/
def endTarget (e : Entry) (ending : Ending) : Option Address :=
  if e.kind.isCreate then
    if ending.succeeded then ending.created.or (e.target.or e.saltedTarget) else none
  else e.target

def report (e : Entry) (ending : Ending) (calls : List Frame) (logs : List FrameLog) : Frame :=
  { kind := e.kind
    sender := e.sender
    gas := e.gas
    gasUsed := ending.gasUsed e.gas
    target := e.endTarget ending
    input := e.input
    output := ending.data
    error := ending.errorText
    revertReason := ending.reason
    calls
    logs
    value := if e.kind = .staticCall then none else some e.value }

end Entry

namespace Body

def logs (before : Nat) : Body → List FrameLog
  | done => []
  | detail _ rest => rest.logs before
  | log l rest => ⟨l, UInt64.ofNat before⟩ :: rest.logs before
  | action _ _ _ rest => rest.logs (before + 1)

/-- The frames of the actions in a body. Logs are kept below `keep` only, and below successful
actions only. -/
def frames (keep : Bool) : Body → List Frame
  | done => []
  | detail _ rest => rest.frames keep
  | log _ rest => rest.frames keep
  | action e inside ending rest =>
    let keepInside := keep && ending.succeeded
    e.report ending (inside.frames keepInside) (if keepInside then inside.logs 0 else []) ::
      rest.frames keep

def count : Body → Nat
  | done => 0
  | detail _ rest => rest.count
  | log _ rest => rest.count
  | action _ inside _ rest => 1 + inside.count + rest.count

def height : Body → Nat
  | done => 0
  | detail _ rest => rest.height
  | log _ rest => rest.height
  | action _ inside _ rest => max (inside.height + 1) rest.height

private theorem countAll_frames (keep : Bool) (body : Body) :
    Frame.countAll (body.frames keep) = body.count := by
  induction body generalizing keep with
  | done => rfl
  | detail _ _ ih => exact ih keep
  | log _ _ ih => exact ih keep
  | action e inside ending rest ihInside ihRest =>
    rw [frames, Frame.countAll, Entry.report, Frame.count, ihInside, ihRest, count]

private theorem heightAll_frames (keep : Bool) (body : Body) :
    Frame.heightAll (body.frames keep) = body.height := by
  induction body generalizing keep with
  | done => rfl
  | detail _ _ ih => exact ih keep
  | log _ _ ih => exact ih keep
  | action e inside ending rest ihInside ihRest =>
    rw [frames, Frame.heightAll, Entry.report, Frame.height, ihInside, ihRest, height]

end Body

/-- The failure that a settlement states. One that is unsuccessful without saying why reverted. -/
def Settlement.verdict (o : Settlement) : Option Failure :=
  o.failure.or (if o.success then none else some .revert)

namespace Action

/-- The account in the top frame. A creation that settles well and reports no address has the one
that is known of the transaction. -/
def settledTarget (a : Action) (f : TxFacts) (o : Settlement) : Option Address :=
  if a.entry.kind.isCreate then
    if o.verdict.isSome then none
    else (a.entry.endTarget a.ending).or (a.entry.target.or f.created)
  else a.entry.target

/-- The call tree of a transaction: the frame of its top action with what the settlement says of
gas, output and failure. -/
def tree (a : Action) (withLog : Bool) (f : TxFacts) (o : Settlement) : Frame :=
  let keep := withLog && o.verdict.isNone
  let gas := if f.gasLimit = 0 then a.entry.gas else f.gasLimit
  { a.entry.report a.ending (a.body.frames keep) (if keep then a.body.logs 0 else []) with
    gas
    gasUsed := min o.gasUsed gas
    target := a.settledTarget f o
    output := if o.verdict.all Failure.isRevert then o.output else []
    error := o.verdict.map Failure.message
    revertReason := if o.verdict = some .revert then RevertReason.decode o.output else none }

end Action

/-! ### Frames as they are built

While events arrive, no log is dropped: which frames failed shows only at their ends. -/

namespace Body

/-- The frames of the actions in a body before failed ones lose their logs. -/
private def built (withLog : Bool) : Body → List Frame
  | done => []
  | detail _ rest => rest.built withLog
  | log _ rest => rest.built withLog
  | action e inside ending rest =>
    e.report ending (inside.built withLog) (if withLog then inside.logs 0 else []) ::
      rest.built withLog

private theorem built_without_logs (body : Body) : body.built false = body.frames false := by
  induction body with
  | done => rfl
  | detail _ _ ih => exact ih
  | log _ _ ih => exact ih
  | action e inside ending rest ihInside ihRest =>
    simp only [built, frames, Bool.false_and, ihInside, ihRest]

private theorem pruneAllLogs_built (failed : Bool) (body : Body) :
    Frame.pruneAllLogs failed (body.built true) = body.frames (!failed) := by
  induction body generalizing failed with
  | done => rfl
  | detail _ _ ih => exact ih failed
  | log _ _ ih => exact ih failed
  | action e inside ending rest ihInside ihRest =>
    have hkeep : (!(failed || ending.errorText.isSome)) = (!failed && ending.succeeded) := by
      rw [Ending.isSome_errorText]
      cases failed <;> cases ending.succeeded <;> rfl
    have hlogs : (if (failed || ending.errorText.isSome) = true then [] else inside.logs 0) =
        if (!failed && ending.succeeded) = true then inside.logs 0 else [] := by
      rw [← hkeep]
      cases failed || ending.errorText.isSome <;> rfl
    simp only [built, frames, Frame.pruneAllLogs, Entry.report, Frame.pruneLogs, ihInside, ihRest,
      if_true, hlogs, hkeep]

end Body

/-! ### Running the events -/

namespace CallTree

private def grown (withLog : Bool) (frame : Frame) (body : Body) : Frame :=
  { frame with
    calls := frame.calls ++ body.built withLog
    logs := frame.logs ++ if withLog then body.logs frame.calls.length else [] }

private theorem satSub64_eq (a b : UInt64) : satSub64 a b = UInt64.ofNat (a.toNat - b.toNat) := by
  apply UInt64.toNat_inj.mp
  rw [toNat_satSub64, UInt64.toNat_ofNat', Nat.mod_eq_of_lt]
  have := a.toNat_lt
  omega

private theorem decode_nil : RevertReason.decode [] = none := rfl
private theorem isRevert_revert : Failure.revert.isRevert = true := rfl

private theorem saltedTarget_of_not_create {e : Entry} (h : e.kind.isCreate = false) :
    e.saltedTarget = none := by
  unfold Entry.saltedTarget
  split
  · next hk => rw [hk] at h; cases h
  · rfl

/-- Ending the frame of an entry gives the report of the action, with the frames and logs that
the body put there. -/
private theorem withEnding_grown (withLog : Bool) (e : Entry) (body : Body) (ending : Ending) :
    (grown withLog (.ofEntry e) body).withEnding ending =
      e.report ending (body.built withLog) (if withLog then body.logs 0 else []) := by
  have hvalue : (if e.kind.carriesValue then some e.value else none) =
      if e.kind = .staticCall then none else some e.value := by
    cases e.kind <;> rfl
  have htarget (hk : e.kind.isCreate = false) : Frame.entryTarget e = e.target := by
    rw [Entry.entryTarget_eq, saltedTarget_of_not_create hk, Option.or_none]
  cases hk : e.kind.isCreate <;> cases ending <;>
    simp [Frame.withEnding, Frame.withFailure, Frame.ofEntry, Frame.start, grown, Entry.report,
      Entry.endTarget, Ending.gasUsed, Ending.data, Ending.errorText, Ending.reason,
      Ending.succeeded, Ending.created, isRevert_revert, decode_nil, satSub64_eq, hvalue, hk,
      htarget, Entry.entryTarget_eq]

variable {config : Config} {facts : TxFacts} {root : Option Frame}

private def opened (frames : List Frame) (root : Option Frame) : Nesting Frame :=
  ⟨frames, frames.length, false, root⟩

private theorem step_entered (w : World) (e : Entry) (frames : List Frame) (h : frames ≠ []) :
    (Tracer.calls ⟨config, facts, opened frames root⟩).step w
        (.entered { e with depth := frames.length }) =
      (.calls ⟨config, facts, opened (.ofEntry e :: frames) root⟩, .ok ()) := by
  have hlen : frames.length ≠ 0 := by simpa using h
  simp [Tracer.step, step, Nesting.enter, Nesting.keeps, opened, hlen, Frame.ofEntry,
    Frame.entryTarget]

private theorem close_opened (f : Frame → Frame) (frame parent : Frame) (outer : List Frame) :
    (opened (frame :: parent :: outer) root).close f =
      (opened (Adopts.adopt parent (f frame) :: outer) root, .ok ()) := by
  obtain ⟨hle, _⟩ | ⟨_, hf, _⟩ | ⟨_, _, _, hf, _, hc⟩ :=
    Nesting.close_cases (s := opened (frame :: parent :: outer) root) (Nat.succ_ne_zero _) f
  · exact absurd hle (Nat.not_succ_le_self _)
  · simp [opened] at hf
  · rw [hc]
    cases hf
    rfl

private theorem step_ended (w : World) (ending : Ending) (frame parent : Frame)
    (outer : List Frame) :
    (Tracer.calls ⟨config, facts, opened (frame :: parent :: outer) root⟩).step w
        (.ended ending) =
      (.calls ⟨config, facts,
        opened (Adopts.adopt parent (frame.withEnding ending) :: outer) root⟩, .ok ()) := by
  simp only [Tracer.step, step, close_opened]
  rcases ending with ⟨_, _, _ | _⟩ | _ | _ <;> rfl

private theorem step_log (w : World) (l : LogEntry) (frame : Frame) (outer : List Frame) :
    (Tracer.calls ⟨config, facts, opened (frame :: outer) root⟩).step w (.log l) =
      (.calls ⟨config, facts,
        opened ((if config.withLog then frame.withLog l else frame) :: outer) root⟩, .ok ()) := by
  cases h : config.withLog <;>
    simp [Tracer.step, step, Nesting.modifyCurrent, Nesting.isTracking, opened, h]

/-- A body adds its frames and logs to the innermost frame and changes nothing else. -/
private theorem run_body (w : World) (body : Body) (parent : Frame) (outer : List Frame)
    (rest : List Event) :
    (Tracer.calls ⟨config, facts, opened (parent :: outer) root⟩).run w
        (body.events (outer.length + 1) ++ rest) =
      (Tracer.calls ⟨config, facts, opened (grown config.withLog parent body :: outer) root⟩).run w
        rest := by
  induction body generalizing parent outer rest with
  | done =>
    have hgrown : grown config.withLog parent .done = parent := by
      cases parent
      simp [grown, Body.built, Body.logs]
    rw [hgrown]
    rfl
  | detail e tail ih =>
    have hstep : (Tracer.calls ⟨config, facts, opened (parent :: outer) root⟩).step w e.val =
        (.calls ⟨config, facts, opened (parent :: outer) root⟩, .ok ()) := by
      rcases e with ⟨e, he⟩
      cases e <;> first | rfl | cases he
    rw [Body.events, List.cons_append, Tracer.run, hstep]
    exact ih parent outer rest
  | log l tail ih =>
    rw [Body.events, List.cons_append, Tracer.run, step_log]
    dsimp only
    rw [ih]
    cases hlog : config.withLog <;> simp [grown, Body.built, Body.logs, Frame.withLog]
  | action e inside ending tail ihInside ihTail =>
    rw [Body.events, List.cons_append, List.append_assoc, Tracer.run,
      show outer.length + 1 = (parent :: outer).length from rfl, step_entered w e _ (by simp)]
    dsimp only
    rw [ihInside, List.cons_append, Tracer.run, step_ended, withEnding_grown]
    dsimp only
    rw [List.length_cons, ihTail]
    simp [grown, Body.built, Body.logs, Adopts.adopt]

private theorem close_top (f : Frame → Frame) (frame : Frame) :
    (opened [frame] none).close f = (⟨[], 0, false, some (f frame)⟩, .ok ()) := rfl

/-- The address that is known of a created contract once the top action has ended. -/
private def known (a : Action) (f : TxFacts) : Option Address :=
  if a.entry.kind.isCreate then
    match a.ending with
    | .returned _ _ (some created) => some created
    | _ => a.entry.target.or f.created
  else f.created

private def endFacts (a : Action) (f : TxFacts) : TxFacts :=
  { f.withTopEntry a.entry with created := known a f }

private theorem endTarget_or_known {a : Action} {f : TxFacts} (h : a.entry.kind.isCreate = true) :
    (a.entry.endTarget a.ending).or (known a f) =
      (a.entry.endTarget a.ending).or (a.entry.target.or f.created) := by
  unfold known Entry.endTarget
  rw [if_pos h, if_pos h]
  rcases a.ending with ⟨_, _, _ | created⟩ | _ | _ <;> rfl

theorem run_events (w : World) (config : Config) (h : config.onlyTopCall = false)
    (f : TxFacts) (a : Action) (o : Settlement) :
    (Tracer.calls (.start config f)).run w (a.events ++ [.settled o]) =
      .ok (.calls ⟨config, (endFacts a f).withSettlement o,
        ⟨[], 0, false, some (a.entry.report a.ending (a.body.built config.withLog)
          (if config.withLog then a.body.logs 0 else []))⟩⟩) := by
  have hstart : (Tracer.calls (.start config f)).step w (.entered { a.entry with depth := 0 }) =
      (.calls ⟨config, f.withTopEntry a.entry, opened [.ofEntry a.entry] none⟩, .ok ()) := by
    simp [Tracer.step, step, start, Nesting.start, Nesting.enter, Nesting.keeps, opened, h]
    exact ⟨rfl, rfl⟩
  have hend : (Tracer.calls ⟨config, f.withTopEntry a.entry,
        opened [grown config.withLog (.ofEntry a.entry) a.body] none⟩).step w (.ended a.ending) =
      (.calls ⟨config, endFacts a f,
        ⟨[], 0, false, some (a.entry.report a.ending (a.body.built config.withLog)
          (if config.withLog then a.body.logs 0 else []))⟩⟩, .ok ()) := by
    rw [← withEnding_grown]
    simp only [Tracer.step, step, close_top, endFacts, known, TxFacts.isCreation,
      TxFacts.withTopEntry]
    cases a.entry.kind.isCreate <;> rcases a.ending with ⟨_, _, _ | created⟩ | _ | _ <;> rfl
  rw [Action.events, List.cons_append, List.append_assoc, Tracer.run, hstart]
  dsimp only
  rw [show (1 : Nat) = ([] : List Frame).length + 1 from rfl, run_body, List.cons_append,
    Tracer.run, hend]
  rfl

private theorem with_gas_limit (top : Frame) (limit : UInt64) :
    (if 0 < limit then { top with gas := limit } else top) =
      { top with gas := if 0 < limit then limit else top.gas } := by
  cases top
  split <;> rfl

private theorem gas_of_limit (limit gas : UInt64) :
    (if 0 < (if limit = 0 then gas else limit) then (if limit = 0 then gas else limit) else gas) =
      if limit = 0 then gas else limit := by
  by_cases h : limit = 0
  · simp [h]
  · have hpos : 0 < limit := by
      rw [UInt64.lt_iff_toNat_lt]
      exact Nat.pos_of_ne_zero fun hz => h (UInt64.toNat_inj.mp hz)
    simp [h, hpos]

private theorem settleTop_eq (f : TxFacts) (top : Frame) :
    settleTop f top =
      { top with
        gasUsed := min f.gasUsed top.gas
        target :=
          if top.kind.isCreate then
            if f.failure.isSome then none else top.target.or f.created
          else top.target
        output := if f.failure.all Failure.isRevert then f.output else []
        error := f.failure.map Failure.message
        revertReason :=
          if f.failure = some .revert then RevertReason.decode f.output else none } := by
  have hrevert (failure : Failure) : (failure.isRevert = true) = (failure = .revert) := by
    cases failure <;> simp [Failure.isRevert]
  unfold settleTop
  cases f.failure with
  | none => simp
  | some failure => simp [Frame.withFailure, hrevert]

/-- Of the logs of a tree as built, those of failed frames are dropped at last. -/
private theorem pruneLogs_top (top : Frame) (body : Body) :
    Frame.pruneLogs false { top with calls := body.built true, logs := body.logs 0 } =
      { top with
        calls := body.frames top.error.isNone
        logs := if top.error.isNone then body.logs 0 else [] } := by
  simp only [Frame.pruneLogs, Bool.false_or, Body.pruneAllLogs_built]
  cases top.error <;> rfl

/-- The settled top frame, with the frames and logs that were built. -/
private theorem settleTop_report (withLog : Bool) (f : TxFacts) (a : Action) (o : Settlement)
    (facts : TxFacts) (hf : facts = (endFacts a f).withSettlement o) (top : Frame)
    (htop : top = a.entry.report a.ending (a.body.built withLog)
      (if withLog then a.body.logs 0 else [])) :
    settleTop facts (if 0 < facts.gasLimit then { top with gas := facts.gasLimit } else top) =
      { a.tree false f o with
        calls := a.body.built withLog
        logs := if withLog then a.body.logs 0 else [] } := by
  have htarget : (if a.entry.kind.isCreate then
        if o.verdict.isSome then none else (a.entry.endTarget a.ending).or (known a f)
      else a.entry.endTarget a.ending) = a.settledTarget f o := by
    unfold Action.settledTarget
    cases hk : a.entry.kind.isCreate with
    | true => rw [endTarget_or_known hk]; rfl
    | false => simp [Entry.endTarget, hk]
  have hlimit : facts.gasLimit = if f.gasLimit = 0 then a.entry.gas else f.gasLimit := by
    rw [hf]; rfl
  have hgas : top.gas = a.entry.gas := by rw [htop]; rfl
  have hfailure : facts.failure = o.verdict := by rw [hf]; rfl
  rw [with_gas_limit, hgas, hlimit, gas_of_limit, settleTop_eq, hfailure, Action.tree, ← htarget,
    htop, hf]
  rfl

theorem output_settled (withLog : Bool) (f : TxFacts) (a : Action) (o : Settlement) :
    output ⟨{ withLog }, (endFacts a f).withSettlement o,
        ⟨[], 0, false, some (a.entry.report a.ending (a.body.built withLog)
          (if withLog then a.body.logs 0 else []))⟩⟩ =
      .ok (a.tree withLog f o) := by
  have hsettled : ((endFacts a f).withSettlement o).settled = true := rfl
  rw [output, if_neg (by simp)]
  dsimp only [Option.getD_some]
  rw [if_pos hsettled, settleTop_report withLog f a o _ rfl _ rfl]
  cases withLog with
  | false =>
    rw [Body.built_without_logs]
    rfl
  | true =>
    have herror : (a.tree false f o).error.isNone = o.verdict.isNone := by
      simp [Action.tree]
    simp only [if_true, pruneLogs_top, herror]
    rfl

/-- Every event of an action and its settlement is accepted, and the call tree is the one read off
the action, for any nesting, any endings and any settlement. It has a frame for each action, nested
as the actions are. -/
theorem run_action_output (w : World) (withLog : Bool) (f : TxFacts) (a : Action)
    (o : Settlement) :
    ∃ t, (Tracer.calls (.start { withLog } f)).run w (a.events ++ [.settled o]) =
        .ok (.calls t) ∧
      t.output = .ok (a.tree withLog f o) ∧
      (a.tree withLog f o).count = 1 + a.body.count ∧
      (a.tree withLog f o).height = a.body.height := by
  refine ⟨_, run_events w { withLog } rfl f a o, output_settled withLog f a o, ?_, ?_⟩
  · exact congrArg (1 + ·) (Body.countAll_frames (withLog && o.verdict.isNone) a.body)
  · exact Body.heightAll_frames (withLog && o.verdict.isNone) a.body

end CallTree
end ExecutionTrace
