import ExecutionTrace.Proofs.Protocol
import ExecutionTrace.Proofs.Recorder.Hooks

/-! The histogram of a recording. Inside the top action it counts the operations that are about to
make a call, each under the key that its operands spell, and nothing else. -/
namespace ExecutionTrace

/-- What the machine shows of an operation that it is about to run, memory as it is before. -/
structure Shown where
  opcode : UInt8
  stack : List Word
  memory : ByteArray

/-- The key of the call that the operation is about to make. It has none if it makes no call, or
one that is not counted, or if its operands cannot be decoded. -/
def Shown.key? (precompiled : Address → Bool) (s : Shown) : Option String :=
  (Opcode.callInput? s.opcode).bind fun input =>
    (Selectors.operandKey precompiled s.memory.data.toList s.stack input).toOption.join

def Hook.shown? : Hook → Option Shown
  | .step opcode _ stack memory _ => some ⟨opcode, stack, memory⟩
  | _ => none

def Hook.key? (precompiled : Address → Bool) (hook : Hook) : Option String :=
  hook.shown?.bind (Shown.key? precompiled)

theorem Hook.filterMap_key?_cons (precompiled : Address → Bool) (hook : Hook) (rest : List Hook) :
    (hook :: rest).filterMap (Hook.key? precompiled) =
      (hook.key? precompiled).toList ++ rest.filterMap (Hook.key? precompiled) := by
  cases h : hook.key? precompiled with
  | none => rw [List.filterMap_cons_none h]; rfl
  | some key => rw [List.filterMap_cons_some h]; rfl

/-- Whether an event shows a stack, from which alone calls are counted. -/
def Event.isStack : Event → Bool
  | .stack _ => true
  | _ => false

private theorem Opcode.isCall_eq (opcode : UInt8) : isCall opcode = (callInput? opcode).isSome := by
  unfold isCall callInput?
  split <;> simp_all

namespace Selectors

def count (counts : OrdMap String Nat) (key : String) : Nat := (counts.get? key).getD 0

theorem count_empty (key : String) : count ∅ key = 0 := rfl

private theorem count_bump (counts : OrdMap String Nat) (bumped key : String) :
    count (bump counts bumped) key = count counts key + if bumped = key then 1 else 0 := by
  unfold count bump
  rw [OrdMap.get?_insert]
  by_cases h : bumped = key
  · rw [if_pos h.symm, if_pos h, h]
    rfl
  · rw [if_neg (Ne.symm h), if_neg h]
    rfl

theorem count_foldl_bump (counts : OrdMap String Nat) (bumped : List String) (key : String) :
    count (bumped.foldl bump counts) key = count counts key + bumped.count key := by
  induction bumped generalizing counts with
  | nil => rfl
  | cons first rest ih =>
    have hfirst : (if (first == key) = true then 1 else 0) = if first = key then 1 else 0 := by
      simp only [beq_iff_eq]
    rw [List.foldl_cons, ih, count_bump, List.count_cons, hfirst]
    omega

/-- The histogram in the making after events, refused ones included. -/
def after (s : Selectors) (events : List Event) : Selectors :=
  events.foldl (fun s e => (s.step e).1) s

theorem after_append (s : Selectors) (first second : List Event) :
    s.after (first ++ second) = (s.after first).after second :=
  List.foldl_append

theorem precompiled_step (s : Selectors) (e : Event) :
    (s.step e).1.facts.precompiled = s.facts.precompiled := by
  cases e with
  | entered e =>
    simp only [step]
    split <;> (dsimp only; split <;> rfl)
  | ended ending =>
    simp only [step]
    split <;> rfl
  | stack words =>
    simp only [step, stackStep]
    split
    · rfl
    · split <;> rfl
  | settled o =>
    simp only [step]
    split <;> rfl
  | _ => rfl

theorem precompiled_after (s : Selectors) (events : List Event) :
    (s.after events).facts.precompiled = s.facts.precompiled := by
  induction events generalizing s with
  | nil => rfl
  | cons e rest ih => exact (ih _).trans (precompiled_step s e)

theorem counts_step {s : Selectors} {e : Event} (h : e.isStack = false) :
    (s.step e).1.counts = s.counts := by
  cases e with
  | entered e =>
    simp only [step]
    split <;> rfl
  | ended ending =>
    simp only [step]
    split <;> rfl
  | stack words => cases h
  | settled o =>
    simp only [step]
    split <;> rfl
  | _ => rfl

theorem counts_after {s : Selectors} {events : List Event} (h : ∀ e ∈ events, e.isStack = false) :
    (s.after events).counts = s.counts := by
  induction events generalizing s with
  | nil => rfl
  | cons e rest ih =>
    have hrest := ih (s := (s.step e).1) fun e he => h e (List.mem_cons_of_mem _ he)
    exact hrest.trans (counts_step (h e List.mem_cons_self))

/-- The snapshots of an operation, in the order in which the recorder makes them, count the call
that the operation is about to make. -/
private theorem counts_snapshots (s : Selectors) (op : OpStart) (stack : List Word)
    (memory : ByteArray) {accesses : List Event} (h : ∀ e ∈ accesses, e.isStack = false) :
    (s.after (.opStarted op ::
        ((if Opcode.readsMemory op.opcode then [Event.memory memory.data.toList] else []) ++
          .stack stack :: accesses))).counts =
      (Shown.key? s.facts.precompiled ⟨op.opcode, stack, memory⟩).toList.foldl bump s.counts := by
  have hafter (t : Selectors) : (t.after (.stack stack :: accesses)).counts =
      (stackStep t stack).counts := counts_after h
  cases hinput : Opcode.callInput? op.opcode with
  | none =>
    have hcount (t : Selectors) (ht : t.op.opcode = some op.opcode) :
        (stackStep t stack).counts = t.counts := by
      simp [stackStep, ht, hinput]
    simp only [Shown.key?, hinput]
    split
    · exact (hafter _).trans (hcount _ rfl)
    · exact (hafter _).trans (hcount _ rfl)
  | some input =>
    have hreads : Opcode.readsMemory op.opcode = true := by
      rw [Opcode.readsMemory, Opcode.isCall_eq, hinput]
      rfl
    rw [if_pos hreads]
    refine (hafter _).trans ?_
    simp only [stackStep, step, PendingOp.start, PendingOp.withMemory, Option.bind_some, hinput,
      Shown.key?]
    rcases operandKey s.facts.precompiled memory.data.toList stack input with _ | _ | key <;> rfl

private theorem counts_observe (slot : Address → Word → Except DbFault Word) (r : Recorder)
    (hook : Hook) (s : Selectors) :
    (s.after (r.observe slot hook).1).counts =
      (hook.key? s.facts.precompiled).toList.foldl bump s.counts := by
  cases hook with
  | step opcode pc stack memory target =>
    simp only [Recorder.observe]
    split
    · next htraced =>
      have hcall : Opcode.callInput? opcode = none := by
        rw [← Option.not_isSome_iff_eq_none, ← Opcode.isCall_eq]
        intro hcall
        simp [Opcode.isTraced, hcall] at htraced
      simp [Hook.key?, Hook.shown?, Shown.key?, hcall]
      rfl
    · have haccesses : ∀ e ∈ (r.storageEvents slot opcode stack target).1, e.isStack = false := by
        intro e he
        obtain ⟨key, value, rfl⟩ := Recorder.exists_of_mem_storageEvents slot he
        rfl
      exact counts_snapshots s { pc, opcode, gas := 0, depth := r.depth - 1 } stack memory haccesses
  | finish exit gasLeft output created =>
    exact counts_after (by simp [Recorder.observe, Event.isStack])
  | _ => exact counts_after (by simp [Recorder.observe, Event.isStack])

/-- Of all that is recorded, the operations about to make calls are counted, in their order. -/
theorem counts_emitted (slot : Address → Word → Except DbFault Word) (r : Recorder)
    (hooks : List Hook) (s : Selectors) :
    (s.after (r.emitted slot hooks)).counts =
      (hooks.filterMap (Hook.key? s.facts.precompiled)).foldl bump s.counts := by
  induction hooks generalizing r s with
  | nil => rfl
  | cons hook rest ih =>
    rw [Recorder.emitted, after_append, ih, precompiled_after, counts_observe,
      Hook.filterMap_key?_cons, List.foldl_append]

theorem count_output (s : Selectors) (key : String) : count s.counts key ≤ count s.output key := by
  unfold output
  split
  · rw [count_bump]
    exact Nat.le_add_right _ _
  · exact Nat.le_refl _

end Selectors

theorem Tracer.run_selectors {w : World} {s : Selectors} {events : List Event} {t : Tracer}
    (h : (selectors s).run w events = .ok t) : t = selectors (s.after events) := by
  induction events generalizing s with
  | nil => cases h; rfl
  | cons e rest ih => exact ih (run_cons h).2

end ExecutionTrace
