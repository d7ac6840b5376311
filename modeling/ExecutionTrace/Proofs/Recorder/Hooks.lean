import ExecutionTrace.Recorder

/-! Hooks as the machine fires them: calls and creations with their ends like brackets, everything
else in between. The events of a list of hooks are followed one hook at a time. -/
namespace ExecutionTrace

inductive Opening where
  | call (scheme : CallScheme) (caller target codeAddress : Address) (value : Word)
      (gas : UInt64) (input : Bytes)
  | create (caller : Address) (salt : Option Word) (value : Word) (gas : UInt64) (input : Bytes)

structure Closing where
  exit : ExitCode
  gasLeft : UInt64
  output : Bytes
  created : Option Address

inductive HookBody where
  | done
  | step (opcode : UInt8) (pc : Nat) (stack : List Word) (memory : ByteArray) (target : Address)
      (rest : HookBody)
  | log (entry : LogEntry) (rest : HookBody)
  | selfDestruct (contract beneficiary : Address) (value : Word) (rest : HookBody)
  | action (opening : Opening) (inside : HookBody) (closing : Closing) (rest : HookBody)

structure HookAction where
  opening : Opening
  body : HookBody
  closing : Closing

def Opening.hook : Opening → Hook
  | call scheme caller target codeAddress value gas input =>
    .callStart scheme caller target codeAddress value gas input
  | create caller salt value gas input => .createStart caller salt value gas input

def Closing.hook (c : Closing) : Hook := .finish c.exit c.gasLeft c.output c.created

def HookBody.hooks : HookBody → List Hook
  | done => []
  | step opcode pc stack memory target rest => .step opcode pc stack memory target :: rest.hooks
  | log entry rest => .log entry :: rest.hooks
  | selfDestruct contract beneficiary value rest =>
    .selfDestruct contract beneficiary value :: rest.hooks
  | action opening inside closing rest =>
    opening.hook :: (inside.hooks ++ closing.hook :: rest.hooks)

def HookAction.hooks (x : HookAction) : List Hook :=
  x.opening.hook :: (x.body.hooks ++ [x.closing.hook])

namespace Recorder

variable (slot : Address → Word → Except DbFault Word)

def after (r : Recorder) : List Hook → Recorder
  | [] => r
  | hook :: rest => after (r.observe slot hook).2 rest

def emitted (r : Recorder) : List Hook → List Event
  | [] => []
  | hook :: rest => (r.observe slot hook).1 ++ emitted (r.observe slot hook).2 rest

private theorem after_append (r : Recorder) (first second : List Hook) :
    r.after slot (first ++ second) = (r.after slot first).after slot second := by
  induction first generalizing r with
  | nil => rfl
  | cons hook rest ih => exact ih (r.observe slot hook).2

theorem emitted_append (r : Recorder) (first second : List Hook) :
    r.emitted slot (first ++ second) =
      r.emitted slot first ++ (r.after slot first).emitted slot second := by
  induction first generalizing r with
  | nil => rfl
  | cons hook rest ih => rw [List.cons_append, emitted, ih, emitted, List.append_assoc, after]

/-! ### Depth -/

private theorem depth_storageEvents (r : Recorder) (opcode : UInt8) (stack : List Word)
    (target : Address) : (r.storageEvents slot opcode stack target).2.depth = r.depth := by
  unfold storageEvents
  split
  · rfl
  · split
    · rfl
    · dsimp only
      split <;> rfl

/-- An operation with its key accesses a slot; otherwise there is no access. -/
theorem exists_of_mem_storageEvents {r : Recorder} {opcode : UInt8} {stack : List Word}
    {target : Address} {e : Event} (h : e ∈ (r.storageEvents slot opcode stack target).1) :
    ∃ key value, e = .storage target key value := by
  unfold storageEvents at h
  split at h
  · cases h
  · split at h
    · cases h
    · dsimp only at h
      split at h <;> exact ⟨_, _, List.mem_singleton.mp h⟩

theorem depth_observe_step (r : Recorder) (opcode : UInt8) (pc : Nat) (stack : List Word)
    (memory : ByteArray) (target : Address) :
    (r.observe slot (.step opcode pc stack memory target)).2.depth = r.depth := by
  unfold observe
  dsimp only
  split
  · rfl
  · exact depth_storageEvents slot r opcode stack target

theorem depth_observe_opening (r : Recorder) (opening : Opening) :
    (r.observe slot opening.hook).2.depth = r.depth + 1 := by
  cases opening <;> rfl

theorem depth_observe_closing (r : Recorder) (closing : Closing) :
    (r.observe slot closing.hook).2.depth = r.depth - 1 := rfl

/-- Hooks inside an action leave as many actions open as there were. -/
theorem depth_after_body (r : Recorder) (body : HookBody) :
    (r.after slot body.hooks).depth = r.depth := by
  induction body generalizing r with
  | done => rfl
  | step opcode pc stack memory target rest ih =>
    rw [HookBody.hooks, after, ih, depth_observe_step]
  | log entry rest ih => exact ih _
  | selfDestruct contract beneficiary value rest ih => exact ih _
  | action opening inside closing rest ihInside ihRest =>
    rw [HookBody.hooks, after, after_append, after, ihRest, depth_observe_closing, ihInside,
      depth_observe_opening, Nat.add_sub_cancel]

end Recorder

namespace Recording

variable (slot : Address → Word → Except DbFault Word)

/-- What was recorded stays, and the events of the hooks come after it. -/
private theorem events_observeAll (r : Recording) (hooks : List Hook) :
    (r.observeAll slot hooks).events = r.events ++ r.recorder.emitted slot hooks := by
  induction hooks generalizing r with
  | nil => simp [observeAll, Recorder.emitted]
  | cons hook rest ih =>
    have hevents : (r.observe slot hook).events = r.events ++ (r.recorder.observe slot hook).1 := by
      simp [observe, events]
    have hrecorder : (r.observe slot hook).recorder = (r.recorder.observe slot hook).2 := rfl
    rw [observeAll, List.foldl_cons]
    exact (ih _).trans (by
      rw [hevents, hrecorder, Recorder.emitted, List.append_assoc])

theorem events_observeAll_of_nil {r : Recording} (h : r.latestFirst = []) (hooks : List Hook) :
    (r.observeAll slot hooks).events = r.recorder.emitted slot hooks := by
  rw [events_observeAll, events, h]
  rfl

end Recording
end ExecutionTrace
