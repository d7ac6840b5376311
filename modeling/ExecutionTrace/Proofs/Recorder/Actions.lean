import ExecutionTrace.Proofs.Protocol
import ExecutionTrace.Proofs.CallTree.Report
import ExecutionTrace.Proofs.Recorder.Hooks

/-! The recorder turns a tree of hooks into a tree of actions. The depth it counts is the number of
actions that are open, and the call tree has the shape of the hooks. -/
namespace ExecutionTrace

/-- The depths in a stream are right when `opened` actions are open at its start and none at its
end: an entry has the number of open actions, an operation is in the innermost of them. -/
def Nested : (opened : Nat) → List Event → Prop
  | opened, [] => opened = 0
  | opened, .entered e :: rest => e.depth = opened ∧ Nested (opened + 1) rest
  | opened, .ended _ :: rest => 0 < opened ∧ Nested (opened - 1) rest
  | opened, .opStarted op :: rest => op.depth + 1 = opened ∧ Nested opened rest
  | opened, _ :: rest => Nested opened rest

/-- What the hooks of an action tell of its frame and of the frames inside. -/
structure Outline where
  kind : ActionKind
  sender : Address
  target : Option Address
  value : Option Word
  gas : UInt64
  input : Bytes
  failed : Bool
  inside : List Outline

namespace Frame

mutual

def outline : Frame → Outline
  | ⟨kind, sender, gas, _, target, input, _, error, _, calls, _, value⟩ =>
    { kind, sender, target, value, gas, input
      failed := error.isSome
      inside := outlines calls }

def outlines : List Frame → List Outline
  | [] => []
  | call :: calls => outline call :: outlines calls

end

end Frame

namespace Opening

def kind : Opening → ActionKind
  | call scheme _ _ _ _ _ _ => scheme.kind
  | create _ salt _ _ _ => if salt.isSome then .create2 else .create

/-- A delegated call acts for the contract that makes it. -/
def sender : Opening → Address
  | call .delegateCall _ target _ _ _ _ => target
  | call _ caller _ _ _ _ _ => caller
  | create caller _ _ _ _ => caller

/-- The account in the frame. A creation has one if it succeeds: the address it reports, else the
one its salt fixes. -/
def target (closing : Closing) : Opening → Option Address
  | call .delegateCall _ _ codeAddress _ _ _ => some codeAddress
  | call .callCode _ _ codeAddress _ _ _ => some codeAddress
  | call _ _ target _ _ _ _ => some target
  | create caller salt _ _ input =>
    if closing.exit.isOk then
      closing.created.or (salt.map fun salt => caller.createdFrom salt input)
    else none

def value : Opening → Option Word
  | call .staticCall _ _ _ _ _ _ => none
  | call _ _ _ _ value _ _ => some value
  | create _ _ value _ _ => some value

def gas : Opening → UInt64
  | call _ _ _ _ _ gas _ => gas
  | create _ _ _ gas _ => gas

def input : Opening → Bytes
  | call _ _ _ _ _ _ input => input
  | create _ _ _ _ input => input

def outline (opening : Opening) (closing : Closing) (inside : List Outline) : Outline :=
  { kind := opening.kind
    sender := opening.sender
    target := opening.target closing
    value := opening.value
    gas := opening.gas
    input := opening.input
    failed := !closing.exit.isOk
    inside }

end Opening

/-- One outline for each call, creation and self-destruction, in their order. -/
def HookBody.outlines : HookBody → List Outline
  | done => []
  | step _ _ _ _ _ rest => rest.outlines
  | log _ rest => rest.outlines
  | selfDestruct contract beneficiary value rest =>
    { kind := .selfDestruct, sender := contract, target := some beneficiary, value := some value
      gas := 0, input := [], failed := false, inside := [] } :: rest.outlines
  | action opening inside closing rest =>
    opening.outline closing inside.outlines :: rest.outlines

/-- A top frame has the shape of the hooks. Its gas, its failure and the address of a created
contract are not told here: they come from the settlement. -/
structure HookAction.Shows (x : HookAction) (top : Frame) : Prop where
  kind : top.kind = x.opening.kind
  sender : top.sender = x.opening.sender
  target : x.opening.kind.isCreate = false → top.target = x.opening.target x.closing
  value : top.value = x.opening.value
  input : top.input = x.opening.input
  inside : Frame.outlines top.calls = x.body.outlines

/-! ### The action that hooks tell -/

namespace Opening

def entry (depth : Nat) : Opening → Entry
  | call scheme caller target codeAddress value gas input =>
    Recorder.callEntry depth scheme caller target codeAddress value gas input
  | create caller salt value gas input => Recorder.createEntry depth caller salt value gas input

variable (opening : Opening) (depth : Nat)

private theorem kind_entry : (opening.entry depth).kind = opening.kind := by
  cases opening <;> rfl

private theorem sender_entry : (opening.entry depth).sender = opening.sender := by
  rcases opening with ⟨scheme, _⟩ | _
  · cases scheme <;> rfl
  · rfl

private theorem value_entry :
    (if (opening.entry depth).kind = .staticCall then none else some (opening.entry depth).value) =
      opening.value := by
  rcases opening with ⟨scheme, _⟩ | ⟨_, _ | _, _⟩
  · cases scheme <;> rfl
  · rfl
  · rfl

end Opening

def Closing.ending (c : Closing) : Ending :=
  Recorder.endingOf c.exit c.gasLeft c.output c.created

namespace Closing

private theorem succeeded_ending (c : Closing) : c.ending.succeeded = c.exit.isOk := by
  unfold ending Recorder.endingOf
  split
  · next h => exact h.symm
  · next h =>
    split <;> exact (eq_false_of_ne_true h).symm

private theorem created_ending (c : Closing) : c.ending.created = c.created := by
  unfold ending Recorder.endingOf
  split
  · rfl
  · split <;> rfl

end Closing

namespace Opening

private theorem endTarget_entry (opening : Opening) (depth : Nat) (closing : Closing) :
    (opening.entry depth).endTarget closing.ending = opening.target closing := by
  unfold Entry.endTarget
  rw [closing.succeeded_ending, closing.created_ending]
  rcases opening with ⟨scheme, _⟩ | ⟨_, _ | _, _⟩
  · cases scheme <;> rfl
  · rfl
  · rfl

private theorem outline_report (opening : Opening) (depth : Nat) (closing : Closing)
    (calls : List Frame) (logs : List FrameLog) :
    ((opening.entry depth).report closing.ending calls logs).outline =
      opening.outline closing (Frame.outlines calls) := by
  have hgas : (opening.entry depth).gas = opening.gas := by cases opening <;> rfl
  have hinput : (opening.entry depth).input = opening.input := by cases opening <;> rfl
  rw [Entry.report, Frame.outline, outline, kind_entry, sender_entry, endTarget_entry,
    ← kind_entry opening depth, value_entry, hgas, hinput, Ending.isSome_errorText,
    Closing.succeeded_ending, kind_entry]

end Opening

def Event.isOperand : Event → Bool
  | .stack _ | .memory _ | .storage _ _ _ => true
  | _ => false

private theorem nested_operands {opened : Nat} {operands rest : List Event}
    (h : ∀ e ∈ operands, e.isOperand = true) :
    Nested opened (operands ++ rest) ↔ Nested opened rest := by
  induction operands with
  | nil => rfl
  | cons e tail ih =>
    have he := h e List.mem_cons_self
    have htail := ih fun e he => h e (List.mem_cons_of_mem _ he)
    cases e <;> first | exact htail | cases he

namespace Body

def bare : Body → Body
  | done => .done
  | detail _ rest => rest.bare
  | log l rest => .log l rest.bare
  | action e inside ending rest => .action e inside.bare ending rest.bare

private theorem logs_bare (before : Nat) (body : Body) :
    body.bare.logs before = body.logs before := by
  induction body generalizing before with
  | done => rfl
  | detail _ _ ih => exact ih before
  | log _ _ ih => rw [bare, logs, logs, ih]
  | action _ _ _ _ _ ih => exact ih (before + 1)

/-- Operations leave no mark on frames. -/
private theorem frames_bare (keep : Bool) (body : Body) :
    body.bare.frames keep = body.frames keep := by
  induction body generalizing keep with
  | done => rfl
  | detail _ _ ih => exact ih keep
  | log _ _ ih => exact ih keep
  | action e inside ending rest ihInside ihRest =>
    rw [bare, frames, frames, ihInside, ihRest, logs_bare]

/-- Events of operations can be put before a body. -/
private theorem exists_body_of_details {details : List Event}
    (h : ∀ e ∈ details, e.isDetail = true) (opened : Nat) (body : Body) :
    ∃ longer : Body, details ++ body.events opened = longer.events opened ∧
      longer.bare = body.bare := by
  induction details with
  | nil => exact ⟨body, rfl, rfl⟩
  | cons e tail ih =>
    obtain ⟨longer, hevents, hbare⟩ := ih fun e he => h e (List.mem_cons_of_mem _ he)
    refine ⟨.detail ⟨e, h e List.mem_cons_self⟩ longer, ?_, hbare⟩
    rw [List.cons_append, hevents, events]

end Body

namespace HookBody

/-- The actions and logs that hooks tell, without the operations. -/
def told : HookBody → Body
  | done => .done
  | step _ _ _ _ _ rest => rest.told
  | log entry rest => .log entry rest.told
  | selfDestruct contract beneficiary value rest =>
    .action
      { depth := 0, kind := .selfDestruct, sender := contract, target := some beneficiary
        value, gas := 0, input := [], salt := none }
      .done (.returned 0 [] none) rest.told
  | action opening inside closing rest =>
    .action (opening.entry 0) inside.told closing.ending rest.told

theorem outlines_told (keep : Bool) (body : HookBody) :
    Frame.outlines (body.told.frames keep) = body.outlines := by
  induction body generalizing keep with
  | done => rfl
  | step _ _ _ _ _ _ ih => exact ih keep
  | log _ _ ih => exact ih keep
  | selfDestruct contract beneficiary value rest ih =>
    rw [told, Body.frames, Frame.outlines, ih]
    rfl
  | action opening inside closing rest ihInside ihRest =>
    rw [told, Body.frames, Frame.outlines, Opening.outline_report, ihInside, ihRest]
    rfl

end HookBody

namespace Recorder

variable (slot : Address → Word → Except DbFault Word)

private theorem emitted_step (r : Recorder) (opcode : UInt8) (pc : Nat) (stack : List Word)
    (memory : ByteArray) (target : Address) (rest : List Hook) :
    ∃ (same : Recorder) (operands : List Event), same.depth = r.depth ∧
      (∀ e ∈ operands, e.isOperand = true) ∧
      r.emitted slot (.step opcode pc stack memory target :: rest) =
        .opStarted { pc, opcode, gas := 0, depth := r.depth - 1 } ::
          (operands ++ same.emitted slot rest) := by
  have hdepth := depth_observe_step slot r opcode pc stack memory target
  rw [emitted]
  generalize hseen : r.observe slot (.step opcode pc stack memory target) = seen at hdepth ⊢
  unfold observe at hseen
  dsimp only at hseen
  split at hseen
  · subst hseen
    exact ⟨r, [], rfl, by simp, rfl⟩
  · subst hseen
    refine ⟨_, _, hdepth, ?_, rfl⟩
    intro e he
    rcases List.mem_append.mp he with hmemory | hstack
    · split at hmemory
      · rw [List.mem_singleton.mp hmemory]; rfl
      · cases hmemory
    · rcases List.mem_cons.mp hstack with rfl | haccess
      · rfl
      · obtain ⟨key, value, rfl⟩ := exists_of_mem_storageEvents slot haccess
        rfl

/-- The events of an action: those of its body, from a recorder one deeper, within an entry and an
ending; and then those of what follows, at the depth of before. -/
private theorem emitted_action (r : Recorder) (opening : Opening) (inside : HookBody)
    (closing : Closing) (rest : List Hook) :
    ∃ inner outer : Recorder, inner.depth = r.depth + 1 ∧ outer.depth = r.depth ∧
      r.emitted slot (opening.hook :: (inside.hooks ++ closing.hook :: rest)) =
        .entered (opening.entry r.depth) :: (inner.emitted slot inside.hooks ++
          .ended closing.ending :: outer.emitted slot rest) := by
  have hopening : (r.observe slot opening.hook).1 = [.entered (opening.entry r.depth)] := by
    cases opening <;> rfl
  have hinner := depth_observe_opening slot r opening
  have hafter := depth_after_body slot (r.observe slot opening.hook).2 inside
  let inner := (r.observe slot opening.hook).2
  refine ⟨inner, ((inner.after slot inside.hooks).observe slot closing.hook).2, hinner, ?_, ?_⟩
  · rw [depth_observe_closing, hafter, hinner, Nat.add_sub_cancel]
  · rw [emitted, hopening, emitted_append, emitted]
    rfl

private theorem nested_body (body : HookBody) {r : Recorder} (h : 0 < r.depth)
    (rest : List Event) :
    Nested r.depth (r.emitted slot body.hooks ++ rest) ↔ Nested r.depth rest := by
  induction body generalizing r rest with
  | done => rfl
  | step opcode pc stack memory target tail ih =>
    obtain ⟨same, operands, hdepth, hoperands, hemitted⟩ :=
      emitted_step slot r opcode pc stack memory target tail.hooks
    have hop : r.depth - 1 + 1 = r.depth := Nat.sub_add_cancel h
    have htail := ih (r := same) (by rw [hdepth]; exact h) rest
    rw [hdepth] at htail
    rw [HookBody.hooks, hemitted, List.cons_append, List.append_assoc, Nested, hop,
      nested_operands hoperands, htail]
    exact and_iff_right rfl
  | log entry tail ih => exact ih h rest
  | selfDestruct contract beneficiary value tail ih =>
    have htail := ih h rest
    exact (and_iff_right rfl).trans ((and_iff_right (Nat.succ_pos _)).trans htail)
  | action opening inside closing tail ihInside ihTail =>
    obtain ⟨inner, outer, hinner, houter, hemitted⟩ :=
      emitted_action slot r opening inside closing tail.hooks
    have hdepth : (opening.entry r.depth).depth = r.depth := by cases opening <;> rfl
    have hinside := ihInside (r := inner) (by rw [hinner]; exact Nat.succ_pos _)
      (.ended closing.ending :: (outer.emitted slot tail.hooks ++ rest))
    have htail := ihTail (r := outer) (by rw [houter]; exact h) rest
    rw [hinner] at hinside
    rw [houter] at htail
    rw [HookBody.hooks, hemitted, List.cons_append, List.append_assoc, List.cons_append, Nested,
      hinside, Nested, Nat.add_sub_cancel, htail]
    exact (and_iff_right hdepth).trans (and_iff_right (Nat.succ_pos _))

/-- Inside an action, hooks become the body they tell, with operations in it. -/
private theorem exists_body (body : HookBody) {r : Recorder} (h : 0 < r.depth) :
    ∃ whole : Body, r.emitted slot body.hooks = whole.events r.depth ∧ whole.bare = body.told := by
  induction body generalizing r with
  | done => exact ⟨.done, rfl, rfl⟩
  | step opcode pc stack memory target tail ih =>
    obtain ⟨same, operands, hdepth, hoperands, hemitted⟩ :=
      emitted_step slot r opcode pc stack memory target tail.hooks
    obtain ⟨whole, hevents, hbare⟩ := ih (r := same) (by rw [hdepth]; exact h)
    have hdetails : ∀ e ∈ .opStarted { pc, opcode, gas := 0, depth := r.depth - 1 } :: operands,
        e.isDetail = true := by
      intro e he
      rcases List.mem_cons.mp he with rfl | hoperand
      · rfl
      · have := hoperands e hoperand
        cases e <;> first | rfl | cases this
    obtain ⟨longer, hlonger, hsame⟩ := Body.exists_body_of_details hdetails r.depth whole
    refine ⟨longer, ?_, hsame.trans hbare⟩
    rw [HookBody.hooks, hemitted, hevents, hdepth, ← List.cons_append]
    exact hlonger
  | log entry tail ih =>
    obtain ⟨whole, hevents, hbare⟩ := ih h
    refine ⟨.log entry whole, ?_, congrArg (Body.log entry) hbare⟩
    rw [Body.events, ← hevents]
    rfl
  | selfDestruct contract beneficiary value tail ih =>
    obtain ⟨whole, hevents, hbare⟩ := ih h
    refine ⟨.action
      { depth := 0, kind := .selfDestruct, sender := contract, target := some beneficiary
        value, gas := 0, input := [], salt := none }
      .done (.returned 0 [] none) whole, ?_, congrArg (Body.action _ _ _) hbare⟩
    rw [Body.events, ← hevents]
    rfl
  | action opening inside closing tail ihInside ihTail =>
    obtain ⟨inner, outer, hinner, houter, hemitted⟩ :=
      emitted_action slot r opening inside closing tail.hooks
    obtain ⟨wholeInside, heventsInside, hbareInside⟩ :=
      ihInside (r := inner) (by rw [hinner]; exact Nat.succ_pos _)
    obtain ⟨whole, hevents, hbare⟩ := ihTail (r := outer) (by rw [houter]; exact h)
    have hentry : { opening.entry 0 with depth := r.depth } = opening.entry r.depth := by
      cases opening <;> rfl
    refine ⟨.action (opening.entry 0) wholeInside closing.ending whole, ?_, ?_⟩
    · rw [HookBody.hooks, hemitted, Body.events, hentry, heventsInside, hinner, hevents, houter]
    · rw [Body.bare, hbareInside, hbare]
      rfl

private theorem nested_action {r : Recorder} (h : r.depth = 0) (x : HookAction) :
    Nested 0 (r.emitted slot x.hooks) := by
  obtain ⟨inner, outer, hinner, _, hemitted⟩ := emitted_action slot r x.opening x.body x.closing []
  have hentry : (x.opening.entry r.depth).depth = r.depth := by cases x.opening <;> rfl
  have hinside := nested_body slot x.body (r := inner) (by rw [hinner]; exact Nat.succ_pos _)
    [.ended x.closing.ending]
  rw [hinner, h] at hinside
  rw [h] at hentry hemitted
  rw [HookAction.hooks, hemitted]
  refine ⟨hentry, hinside.mpr ?_⟩
  exact ⟨Nat.one_pos, rfl⟩

/-- With nothing open, the hooks of an action become the action that they tell. -/
theorem exists_action_told {r : Recorder} (h : r.depth = 0) (x : HookAction) :
    ∃ a : Action, r.emitted slot x.hooks = a.events ∧ a.entry = x.opening.entry 0 ∧
      a.ending = x.closing.ending ∧ ∀ keep, a.body.frames keep = x.body.told.frames keep := by
  obtain ⟨inner, outer, hinner, _, hemitted⟩ := emitted_action slot r x.opening x.body x.closing []
  obtain ⟨whole, hevents, hbare⟩ :=
    exists_body slot x.body (r := inner) (by rw [hinner]; exact Nat.succ_pos _)
  have hentry : { x.opening.entry 0 with depth := 0 } = x.opening.entry 0 := by
    cases x.opening <;> rfl
  refine ⟨⟨x.opening.entry 0, whole, x.closing.ending⟩, ?_, rfl, rfl, fun keep => ?_⟩
  · rw [HookAction.hooks, hemitted, hevents, hinner, h, Action.events, hentry]
    rfl
  · rw [← hbare, Body.frames_bare]

theorem exists_action {r : Recorder} (h : r.depth = 0) (x : HookAction) :
    ∃ a : Action, r.emitted slot x.hooks = a.events ∧ a.entry = x.opening.entry 0 ∧
      a.ending = x.closing.ending ∧
      ∀ keep, Frame.outlines (a.body.frames keep) = x.body.outlines := by
  obtain ⟨a, ha, hentry, hending, hframes⟩ := exists_action_told slot h x
  refine ⟨a, ha, hentry, hending, fun keep => ?_⟩
  rw [hframes, HookBody.outlines_told]

end Recorder

private theorem shows_tree {x : HookAction} {a : Action} (hentry : a.entry = x.opening.entry 0)
    (hending : a.ending = x.closing.ending)
    (houtlines : ∀ keep, Frame.outlines (a.body.frames keep) = x.body.outlines)
    (withLog : Bool) (f : TxFacts) (o : Settlement) : x.Shows (a.tree withLog f o) where
  kind := by
    rw [← x.opening.kind_entry 0, ← hentry]
    rfl
  sender := by
    rw [← x.opening.sender_entry 0, ← hentry]
    rfl
  target := by
    intro hkind
    have hcall : a.entry.kind.isCreate = false := by rw [hentry, Opening.kind_entry, hkind]
    have hend : a.entry.endTarget a.ending = a.entry.target := by simp [Entry.endTarget, hcall]
    rw [← Opening.endTarget_entry x.opening 0, ← hentry, ← hending, hend]
    simp [Action.tree, Action.settledTarget, hcall]
  value := by
    rw [← x.opening.value_entry 0, ← hentry]
    rfl
  input := by
    have hinput : (x.opening.entry 0).input = x.opening.input := by cases x.opening <;> rfl
    rw [← hinput, ← hentry]
    rfl
  inside := houtlines _

/-- The hooks of an action, taken in by a recorder with nothing open, make the events of one
action. Depths and endings are right, every trace accepts the events and their settlement, and the
call tree has one frame for each call, creation and self-destruction, as the hooks nest them. -/
theorem Recording.events_of_action (slot : Address → Word → Except DbFault Word) {r : Recording}
    (hdepth : r.recorder.depth = 0) (hnew : r.latestFirst = []) (x : HookAction) :
    Nested 0 (r.observeAll slot x.hooks).events ∧
      (∃ a : Action, (r.observeAll slot x.hooks).events = a.events) ∧
      (∀ (w : World) (t : Tracer) (o : Settlement), t.Fresh → t.CanRead w →
        ∃ after, t.run w ((r.observeAll slot x.hooks).events ++ [.settled o]) = .ok after) ∧
      ∀ (w : World) (withLog : Bool) (f : TxFacts) (o : Settlement), ∃ t top,
        (Tracer.calls (.start { withLog } f)).run w
            ((r.observeAll slot x.hooks).events ++ [.settled o]) = .ok (.calls t) ∧
          t.output = .ok top ∧ x.Shows top := by
  have hevents := events_observeAll_of_nil slot hnew x.hooks
  obtain ⟨a, ha, hentry, hending, houtlines⟩ := Recorder.exists_action slot hdepth x
  have hnested := Recorder.nested_action slot hdepth x
  rw [← hevents] at hnested ha
  refine ⟨hnested, ⟨a, ha⟩, ?_, ?_⟩
  · intro w t o hfresh hread
    have hrun : t.protocol.run (a.events ++ [.settled o]) = .ok ⟨0, true⟩ := by
      rw [hfresh.protocol]
      exact Protocol.run_settled_action a o
    obtain ⟨after, hafter, _⟩ := Tracer.run_of_protocol hread hfresh.sound hrun
    rw [ha]
    exact ⟨after, hafter⟩
  · intro w withLog f o
    rw [ha]
    exact ⟨_, a.tree withLog f o, CallTree.run_events w { withLog } rfl f a o,
      CallTree.output_settled withLog f a o, shows_tree hentry hending houtlines withLog f o⟩

/-- A call with a creation inside and a delegated call that runs out of gas after it destroyed the
contract. -/
private def nestedHooks : HookAction where
  opening := .call .call 1 2 2 0 50000 []
  body :=
    .step 0xf0 0 [0, 0, 0] ByteArray.empty 2 <|
    .action (.create 2 none 0 9000 []) (.log ⟨12, [], []⟩ .done) ⟨.returned, 100, [], some 12⟩ <|
    .action (.call .delegateCall 1 2 3 0 800 []) (.selfDestruct 2 4 6 .done)
      ⟨.memoryOutOfGas, 0, [], none⟩ .done
  closing := ⟨.stop, 20000, [], none⟩

theorem Recording.events_of_nested_hooks :
    ∃ events, (Recording.observeAll (fun _ _ => .ok 0) {} nestedHooks.hooks).events = events ∧
      Nested 0 events ∧ (∃ a : Action, events = a.events) ∧
      (∃ after, (Tracer.prestate (.start {})).run .blank
        (events ++ [.settled ⟨true, 30000, [], [], none⟩]) = .ok after) ∧
      ∃ t top, (Tracer.calls (.start {} {})).run .blank
          (events ++ [.settled ⟨true, 30000, [], [], none⟩]) = .ok (.calls t) ∧
        t.output = .ok top ∧ top.target = some 2 ∧
        (Frame.outlines top.calls).map (·.kind) = [.create, .delegateCall] ∧
        (Frame.outlines top.calls).map (·.target) = [some 12, some 3] ∧
        (Frame.outlines top.calls).map (·.failed) = [false, true] := by
  obtain ⟨hnested, haction, haccepted, htree⟩ :=
    Recording.events_of_action (fun _ _ => .ok 0) (r := {}) rfl rfl nestedHooks
  obtain ⟨t, top, hrun, houtput, hshows⟩ := htree .blank false {} ⟨true, 30000, [], [], none⟩
  refine ⟨_, rfl, hnested, haction, haccepted .blank _ _ ⟨{}, .inr (.inl rfl)⟩
      World.readable_blank,
    t, top, hrun, houtput, hshows.target rfl, ?_, ?_, ?_⟩
  · rw [hshows.inside]; rfl
  · rw [hshows.inside]; rfl
  · rw [hshows.inside]; rfl

end ExecutionTrace
