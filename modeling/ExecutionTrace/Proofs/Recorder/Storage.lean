import ExecutionTrace.Proofs.Recorder.Actions

/-! Slots from the hooks to the prestate. What the recorder remembers of writes changes its reports
of a slot after the first one only, and a prestate keeps the first. -/
namespace ExecutionTrace

/-- Whether a hook reads or writes a slot. An operation without a key touches none. -/
def Hook.touches (a : Address) (key : Word) : Hook → Bool
  | .step opcode _ (k :: _) _ target => Opcode.isStorage opcode && target = a && k = key
  | _ => false

private theorem Hook.touches_iff {a : Address} {key : Word} {hook : Hook} :
    hook.touches a key = true ↔
      ∃ opcode pc rest memory, hook = .step opcode pc (key :: rest) memory a ∧
        Opcode.isStorage opcode = true := by
  constructor
  · intro h
    cases hook with
    | step opcode pc stack memory target =>
      cases stack with
      | nil => cases h
      | cons k rest =>
        simp only [touches, Bool.and_eq_true, decide_eq_true_eq] at h
        obtain ⟨⟨hstorage, rfl⟩, rfl⟩ := h
        exact ⟨opcode, pc, rest, memory, rfl, hstorage⟩
    | _ => cases h
  · rintro ⟨opcode, pc, rest, memory, rfl, hstorage⟩
    simp [touches, hstorage]

private theorem Hook.any_touches_iff {a : Address} {key : Word} {hooks : List Hook} :
    hooks.any (Hook.touches a key) = true ↔
      ∃ opcode pc rest memory, Hook.step opcode pc (key :: rest) memory a ∈ hooks ∧
        Opcode.isStorage opcode = true := by
  rw [List.any_eq_true]
  constructor
  · rintro ⟨hook, hmem, ht⟩
    obtain ⟨opcode, pc, rest, memory, rfl, hstorage⟩ := Hook.touches_iff.mp ht
    exact ⟨opcode, pc, rest, memory, hmem, hstorage⟩
  · rintro ⟨opcode, pc, rest, memory, hmem, hstorage⟩
    exact ⟨_, hmem, Hook.touches_iff.mpr ⟨opcode, pc, rest, memory, rfl, hstorage⟩⟩

namespace Recorder

variable (slot : Address → Word → Except DbFault Word)

private theorem slotBefore_of_unwritten {r : Recorder} {a : Address} {key : Word}
    (h : r.writes[(a, key)]? = none) :
    r.slotBefore slot a key = (slot a key).toOption.getD 0 := by
  unfold slotBefore
  rw [h]
  cases slot a key <;> rfl

/-- Of the events of an operation, only the storage access reports a slot. -/
private theorem observe_step_storage (r : Recorder) (opcode : UInt8) (pc : Nat)
    (stack : List Word) (memory : ByteArray) (target a : Address) (key : Word) :
    (r.observe slot (.step opcode pc stack memory target)).1.findSome? (Event.slotValue? a key) =
        (r.storageEvents slot opcode stack target).1.findSome? (Event.slotValue? a key) ∧
      (r.observe slot (.step opcode pc stack memory target)).2 =
        (r.storageEvents slot opcode stack target).2 := by
  unfold observe
  dsimp only
  split
  · next htraced =>
    have hstorage : Opcode.isStorage opcode = false := by
      cases hs : Opcode.isStorage opcode with
      | false => rfl
      | true => simp [Opcode.isTraced, hs] at htraced
    simp [storageEvents, hstorage, Event.slotValue?]
  · split <;> exact ⟨rfl, rfl⟩

private theorem observe_touching {r : Recorder} {a : Address} {key : Word}
    (h : r.writes[(a, key)]? = none) {hook : Hook} (ht : hook.touches a key = true) :
    (r.observe slot hook).1.findSome? (Event.slotValue? a key) =
      some ((slot a key).toOption.getD 0) := by
  obtain ⟨opcode, pc, rest, memory, rfl, hstorage⟩ := Hook.touches_iff.mp ht
  rw [(observe_step_storage slot r opcode pc (key :: rest) memory a a key).1,
    ← slotBefore_of_unwritten slot h]
  unfold storageEvents
  rw [hstorage]
  dsimp only
  split
  · next hfalse => cases hfalse
  · split <;> simp [Event.slotValue?]

private theorem observe_not_touching (r : Recorder) {a : Address} {key : Word} {hook : Hook}
    (ht : hook.touches a key = false) :
    (r.observe slot hook).1.findSome? (Event.slotValue? a key) = none ∧
      (r.observe slot hook).2.writes[(a, key)]? = r.writes[(a, key)]? := by
  cases hook with
  | step opcode pc stack memory target =>
    obtain ⟨hevents, hafter⟩ := observe_step_storage slot r opcode pc stack memory target a key
    rw [hevents, hafter]
    unfold storageEvents
    split
    · exact ⟨rfl, rfl⟩
    · next hstorage =>
      cases stack with
      | nil => exact ⟨rfl, rfl⟩
      | cons k rest =>
        have hother : ¬(target = a ∧ k = key) := by
          rintro ⟨rfl, rfl⟩
          simp [Hook.touches] at ht hstorage
          rw [ht] at hstorage
          cases hstorage
        dsimp only
        split
        · refine ⟨by simp [Event.slotValue?, hother], ?_⟩
          rw [Std.HashMap.getElem?_insert]
          simp [hother]
        · exact ⟨by simp [Event.slotValue?, hother], rfl⟩
  | _ => exact ⟨rfl, rfl⟩

/-- The first report of a slot that has not been written is what the database holds, whatever
hooks come before it and after it. -/
private theorem findSome?_emitted {r : Recorder} {a : Address} {key : Word}
    (h : r.writes[(a, key)]? = none) (hooks : List Hook) :
    (r.emitted slot hooks).findSome? (Event.slotValue? a key) =
      if hooks.any (Hook.touches a key) then some ((slot a key).toOption.getD 0) else none := by
  induction hooks generalizing r with
  | nil => rfl
  | cons hook rest ih =>
    rw [emitted, List.findSome?_append, List.any_cons]
    cases ht : hook.touches a key with
    | true =>
      rw [observe_touching slot h ht]
      rfl
    | false =>
      obtain ⟨hevents, hwrites⟩ := observe_not_touching slot r ht
      rw [hevents, Option.none_or, Bool.false_or]
      exact ih (hwrites.trans h)

end Recorder

namespace Prestate

/-- After a run a slot has the value it had, or else the first one reported. -/
private theorem slot_run {w : World} {p q : Prestate} {events : List Event}
    (h : (Tracer.prestate p).run w events = .ok (.prestate q)) (a : Address) (key : Word) :
    q.slot a key = (p.slot a key).or (events.findSome? (Event.slotValue? a key)) := by
  induction events generalizing p with
  | nil => cases h; simp
  | cons e rest ih =>
    obtain ⟨haccepted, hrest⟩ := Tracer.run_cons h
    have hstep : (Tracer.prestate p).step w e = (.prestate (p.step w e).1, (p.step w e).2) := rfl
    rw [hstep] at haccepted hrest
    rw [ih hrest, slot_step haccepted, List.findSome?_cons]
    cases p.slot a key <;> cases e.slotValue? a key <;> rfl

/-- The prestate of the hooks of an action holds a slot if, and only if, an operation of the action
read or wrote it, and then with the value of the database; one that cannot be read counts as zero.
Writes, and whether their actions fail, do not matter. -/
theorem slot_of_hooks {w : World} (hw : w.Readable)
    (slot : Address → Word → Except DbFault Word) (f : TxFacts) (x : HookAction) :
    ∃ p, (Tracer.prestate (.start f)).run w (Recording.observeAll slot {} x.hooks).events =
        .ok (.prestate p) ∧
      ∀ a key value, p.slot a key = some value ↔
        (∃ opcode pc rest memory, Hook.step opcode pc (key :: rest) memory a ∈ x.hooks ∧
          Opcode.isStorage opcode = true) ∧
        value = (slot a key).toOption.getD 0 := by
  have hevents := Recording.events_observeAll_of_nil slot (r := {}) rfl x.hooks
  obtain ⟨action, haction, _⟩ := Recorder.exists_action slot (r := {}) rfl x
  have haccepted : Protocol.run {} (Recorder.emitted slot {} x.hooks) = .ok ⟨0, true⟩ := by
    rw [haction]
    exact Protocol.run_action action
  obtain ⟨after, hrun, _⟩ := Tracer.run_of_protocol (t := .prestate (.start f)) hw
    (Nesting.sound_start _) haccepted
  obtain ⟨p, rfl⟩ := Tracer.run_prestate hrun
  rw [hevents]
  refine ⟨p, hrun, ?_⟩
  intro a key value
  have hempty : (start f).slot a key = none := rfl
  have hunwritten : ({} : Recorder).writes[(a, key)]? = none := Std.HashMap.getElem?_empty
  rw [slot_run hrun, hempty, Option.none_or, Recorder.findSome?_emitted slot hunwritten,
    ← Hook.any_touches_iff]
  cases x.hooks.any (Hook.touches a key) <;> simp [eq_comm]

/-- A slot that is written in an action that reverts and read again after it. -/
private def rewritingHooks : HookAction where
  opening := .call .call 1 2 2 0 50000 []
  body :=
    .action (.call .delegateCall 1 2 3 0 800 [])
      (.step 0x55 4 [1, 99] ByteArray.empty 2 <| .step 0x54 5 [1] ByteArray.empty 2 .done)
      ⟨.revert, 10, [], none⟩ <|
    .step 0x54 6 [1] ByteArray.empty 2 <|
    .step 0x54 7 [6] ByteArray.empty 2 .done
  closing := ⟨.stop, 20000, [], none⟩

private def onlySlotOne (_ : Address) (key : Word) : Except DbFault Word :=
  if key = 1 then .ok 7 else .error .storageUnavailable

theorem slot_of_reverted_write :
    ∃ p, (Tracer.prestate (.start {})).run .blank
        (Recording.observeAll onlySlotOne {} rewritingHooks.hooks).events = .ok (.prestate p) ∧
      p.slot 2 1 = some 7 ∧ p.slot 2 6 = some 0 ∧ p.slot 2 99 = none := by
  obtain ⟨p, hrun, hslot⟩ := slot_of_hooks World.readable_blank onlySlotOne {} rewritingHooks
  refine ⟨p, hrun, ?_, ?_, ?_⟩
  · exact (hslot 2 1 7).mpr ⟨⟨0x55, 4, [99], _, .tail _ (.tail _ (.head _)), rfl⟩, rfl⟩
  · refine (hslot 2 6 0).mpr ⟨⟨0x54, 7, [], ByteArray.empty, ?_, rfl⟩, rfl⟩
    simp [rewritingHooks, HookAction.hooks, HookBody.hooks]
  · rw [Option.eq_none_iff_forall_ne_some]
    intro value h
    obtain ⟨⟨opcode, pc, rest, memory, hmem, _⟩, _⟩ := (hslot 2 99 value).mp h
    simp [rewritingHooks, HookAction.hooks, HookBody.hooks, Opening.hook, Closing.hook] at hmem

end Prestate
end ExecutionTrace
