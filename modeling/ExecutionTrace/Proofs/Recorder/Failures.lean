import ExecutionTrace.Proofs.Recorder.Actions

/-! The texts of failures from the hooks to the call tree. How an action ended is read twice: once
to see whether it gave gas back, and once for the text of its failure. All that gave gas back is
told as a revert, so some failures with a text of their own lose it. -/
namespace ExecutionTrace

namespace ExitCode

/-- The text in the frame of an action inside the top one that failed with this code. -/
def reported (exit : ExitCode) : String :=
  if exit.isRevert then Failure.revert.message else exit.failure.message

/-- The text is that of the failure, but for codes other than a plain revert that give gas back. -/
private theorem reported_eq_iff (exit : ExitCode) :
    exit.reported = exit.failure.message ↔ (exit.isRevert = true → exit = revert) := by
  unfold reported
  cases h : exit.isRevert with
  | false => simp
  | true =>
    simp only [if_true, forall_const]
    cases exit <;> first | exact absurd h (by decide) | decide

end ExitCode

private theorem Closing.errorText_ending (c : Closing) :
    c.ending.errorText = if c.exit.isOk then none else some c.exit.reported := by
  unfold ending Recorder.endingOf ExitCode.reported
  split
  · rfl
  · split <;> rfl

namespace HookBody

/-- How the calls and creations among hooks ended, in the order in which they began. -/
def exits : HookBody → List ExitCode
  | done => []
  | step _ _ _ _ _ rest => rest.exits
  | log _ rest => rest.exits
  | selfDestruct _ _ _ rest => rest.exits
  | action _ inside closing rest => closing.exit :: (inside.exits ++ rest.exits)

/-- There is a frame for each action among hooks. That of a call or creation has an error exactly if
it did not end well, and then the text that its exit code has. -/
def Blames (text : ExitCode → String) : HookBody → List Frame → Prop
  | done, frames => frames = []
  | step _ _ _ _ _ rest, frames => rest.Blames text frames
  | log _ rest, frames => rest.Blames text frames
  | selfDestruct _ _ _ rest, frames =>
    ∃ frame later, frames = frame :: later ∧ frame.error = none ∧ rest.Blames text later
  | action _ inside closing rest, frames =>
    ∃ frame later, frames = frame :: later ∧
      frame.error = (if closing.exit.isOk then none else some (text closing.exit)) ∧
      inside.Blames text frame.calls ∧ rest.Blames text later

/-- Two texts for exit codes are told apart by any action that failed with different ones. -/
private theorem Blames.iff_of_blames {text other : ExitCode → String} {body : HookBody}
    {frames : List Frame} (h : body.Blames text frames) :
    body.Blames other frames ↔
      ∀ exit ∈ body.exits, exit.isOk = false → text exit = other exit := by
  induction body generalizing frames with
  | done =>
    refine ⟨fun _ exit hexit => ?_, fun _ => h⟩
    cases hexit
  | step _ _ _ _ _ rest ih => exact ih h
  | log _ rest ih => exact ih h
  | selfDestruct _ _ _ rest ih =>
    obtain ⟨frame, later, rfl, hnone, hrest⟩ := h
    rw [exits, ← ih hrest]
    constructor
    · rintro ⟨_, _, heq, _, hother⟩
      cases heq
      exact hother
    · intro hother
      exact ⟨frame, later, rfl, hnone, hother⟩
  | action _ inside closing rest ihInside ihRest =>
    obtain ⟨frame, later, rfl, herror, hinside, hrest⟩ := h
    have hown : (frame.error = if closing.exit.isOk then none else some (other closing.exit)) ↔
        (closing.exit.isOk = false → text closing.exit = other closing.exit) := by
      rw [herror]
      cases closing.exit.isOk <;> simp
    simp only [exits, List.forall_mem_cons, List.forall_mem_append, ← ihInside hinside,
      ← ihRest hrest, ← hown]
    constructor
    · rintro ⟨_, _, heq, herror, hinside, hrest⟩
      cases heq
      exact ⟨herror, hinside, hrest⟩
    · rintro ⟨herror, hinside, hrest⟩
      exact ⟨frame, later, rfl, herror, hinside, hrest⟩

private theorem blames_told (keep : Bool) (body : HookBody) :
    body.Blames ExitCode.reported (body.told.frames keep) := by
  induction body generalizing keep with
  | done => rfl
  | step _ _ _ _ _ rest ih => exact ih keep
  | log _ rest ih => exact ih keep
  | selfDestruct _ _ _ rest ih => exact ⟨_, _, rfl, rfl, ih keep⟩
  | action _ inside closing rest ihInside ihRest =>
    exact ⟨_, _, rfl, closing.errorText_ending, ihInside _, ihRest keep⟩

end HookBody

namespace Recording

variable (slot : Address → Word → Except DbFault Word) {r : Recording}

/-- The call tree of a recording has the reported failures below its top frame. -/
theorem blames_reported (hdepth : r.recorder.depth = 0) (hnew : r.latestFirst = [])
    (x : HookAction) (w : World) (withLog : Bool) (f : TxFacts) (o : Settlement) :
    ∃ t top,
      (Tracer.calls (.start { withLog } f)).run w
          ((r.observeAll slot x.hooks).events ++ [.settled o]) = .ok (.calls t) ∧
        t.output = .ok top ∧ x.body.Blames ExitCode.reported top.calls := by
  obtain ⟨a, ha, _, _, hframes⟩ := Recorder.exists_action_told slot hdepth x
  rw [events_observeAll_of_nil slot hnew, ha]
  refine ⟨_, a.tree withLog f o, CallTree.run_events w { withLog } rfl f a o,
    CallTree.output_settled withLog f a o, ?_⟩
  have hcalls : (a.tree withLog f o).calls = x.body.told.frames _ := hframes _
  rw [hcalls]
  exact x.body.blames_told _

/-- Below the top frame, each failed call or creation of a recording has an error in the call tree:
the text of a revert if the action gave gas back, else that of its own failure. So all of them have
the text of their own failure exactly if those that gave gas back did revert. -/
theorem failures_of_action (hdepth : r.recorder.depth = 0) (hnew : r.latestFirst = [])
    (x : HookAction) (w : World) (withLog : Bool) (f : TxFacts) (o : Settlement) :
    ∃ t top,
      (Tracer.calls (.start { withLog } f)).run w
          ((r.observeAll slot x.hooks).events ++ [.settled o]) = .ok (.calls t) ∧
        t.output = .ok top ∧ x.body.Blames ExitCode.reported top.calls ∧
        (x.body.Blames (·.failure.message) top.calls ↔
          ∀ exit ∈ x.body.exits, exit.isRevert = true → exit = .revert) := by
  obtain ⟨t, top, hrun, houtput, hblames⟩ := blames_reported slot hdepth hnew x w withLog f o
  refine ⟨t, top, hrun, houtput, hblames, ?_⟩
  rw [hblames.iff_of_blames]
  refine forall₂_congr fun exit _ => ?_
  rw [exit.reported_eq_iff]
  constructor
  · intro h hrevert
    refine h ?_ hrevert
    cases exit <;> first | rfl | exact absurd hrevert (by decide)
  · intro h _
    exact h

private def failingHooks : HookAction where
  opening := .call .call 1 2 2 0 90000 []
  body :=
    .action (.create 2 (some 7) 0 40000 [])
      (.action (.call .staticCall 12 3 3 0 500 []) .done ⟨.precompileOutOfGas, 0, [], none⟩ .done)
      ⟨.revert, 300, [], none⟩ .done
  closing := ⟨.stop, 20000, [], none⟩

theorem failures_of_reverted_creation :
    failingHooks.body.exits = [.revert, .precompileOutOfGas] ∧
      ∃ t top,
        (Tracer.calls (.start {} {})).run .blank
            ((observeAll (fun _ _ => .ok 0) {} failingHooks.hooks).events ++
              [.settled ⟨true, 70000, [], [], none⟩]) = .ok (.calls t) ∧
          t.output = .ok top ∧ failingHooks.body.Blames (·.failure.message) top.calls := by
  obtain ⟨t, top, hrun, houtput, _, hown⟩ := failures_of_action (fun _ _ => .ok 0) (r := {})
    rfl rfl failingHooks .blank false {} ⟨true, 70000, [], [], none⟩
  exact ⟨rfl, t, top, hrun, houtput, hown.mpr (by decide)⟩

/-- A call with more value than its caller has. -/
private def unfundedHooks : HookAction where
  opening := .call .call 1 2 2 0 90000 []
  body := .action (.call .call 2 3 3 1 500 []) .done ⟨.outOfFunds, 500, [], none⟩ .done
  closing := ⟨.stop, 60000, [], none⟩

/-- The frame of a call without funds says that it reverted, and not what it lacked. -/
theorem unfunded_call_reverts :
    ∃ t top frame,
      (Tracer.calls (.start {} {})).run .blank
          ((observeAll (fun _ _ => .ok 0) {} unfundedHooks.hooks).events ++
            [.settled ⟨true, 30000, [], [], none⟩]) = .ok (.calls t) ∧
        t.output = .ok top ∧ top.calls = [frame] ∧ frame.error = some "execution reverted" ∧
        ExitCode.outOfFunds.failure.message = "insufficient balance for transfer" ∧
        ¬unfundedHooks.body.Blames (·.failure.message) top.calls := by
  obtain ⟨t, top, hrun, houtput, hblames⟩ := blames_reported (fun _ _ => .ok 0) (r := {})
    rfl rfl unfundedHooks .blank false {} ⟨true, 30000, [], [], none⟩
  obtain ⟨frame, later, hcalls, herror, _, rfl⟩ := id hblames
  refine ⟨t, top, frame, hrun, houtput, hcalls, herror, rfl, ?_⟩
  rw [hblames.iff_of_blames]
  intro h
  exact absurd (h .outOfFunds (.head _) rfl) (by decide)

end Recording
end ExecutionTrace
