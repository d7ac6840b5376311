import ExecutionTrace.Tracer
import ExecutionTrace.Proofs.Nesting.Moves
import ExecutionTrace.Proofs.Prestate.Capture

/-! All traces accept and refuse the same events. What they remember besides differs, but the
answer of each is that of the nesting protocol, provided that accounts can be read. -/
namespace ExecutionTrace

namespace Tracer

def protocol : Tracer → Protocol
  | calls t => t.stack.protocol
  | prestate p => p.scopes.protocol
  | selectors s => s.scopes.protocol

def Sound : Tracer → Prop
  | calls t => t.stack.Sound
  | prestate p => p.scopes.Sound
  | selectors s => s.scopes.Sound

def CanRead (w : World) : Tracer → Prop
  | prestate _ => w.Readable
  | _ => True

def Fresh (t : Tracer) : Prop :=
  ∃ facts, (∃ config, t = calls (.start config facts)) ∨ t = prestate (.start facts) ∨
    t = selectors (.start facts)

theorem Fresh.sound {t : Tracer} (h : t.Fresh) : t.Sound := by
  obtain ⟨facts, ⟨config, rfl⟩ | rfl | rfl⟩ := h
  · exact Nesting.sound_start _
  · exact Nesting.sound_start _
  · exact Nesting.sound_start _

theorem Fresh.protocol {t : Tracer} (h : t.Fresh) : t.protocol = {} := by
  obtain ⟨facts, ⟨config, rfl⟩ | rfl | rfl⟩ := h <;> rfl

/-- A trace that has answered an event as the protocol does. -/
def Follows (before : Protocol) (e : Event) (after : Tracer × Except TraceError Unit) : Prop :=
  match before.next e with
  | .ok s => after.2 = .ok () ∧ after.1.protocol = s
  | .error v => after.2 = .error (.violation v) ∧ after.1.protocol = before

private theorem follows_enter {α : Type} {s : Nesting α} {e : Entry} {x : α}
    {step : Tracer × Except TraceError Unit}
    (hok : ∀ after kept, s.enter e.depth x = (after, .ok kept) →
      step.2 = .ok () ∧ step.1.protocol = after.protocol)
    (herr : ∀ v, s.enter e.depth x = (s, .error v) →
      step.2 = .error (.violation v) ∧ step.1.protocol = s.protocol) :
    Follows s.protocol (.entered e) step := by
  have h := Nesting.protocol_enter s e.depth x
  rw [Follows, show s.protocol.next (.entered e) = s.protocol.enter e.depth from rfl, h]
  rcases he : s.enter e.depth x with ⟨after, v | kept⟩
  · exact herr v (Nesting.enter_refused he ▸ he)
  · exact hok after kept he

private theorem follows_close {α : Type} [Adopts α] {s : Nesting α} (hs : s.Sound)
    {ending : Ending} {f : α → α} {step : Tracer × Except TraceError Unit}
    (hok : ∀ after, s.close f = (after, .ok ()) →
      step.2 = .ok () ∧ step.1.protocol = after.protocol)
    (herr : ∀ v, s.close f = (s, .error v) →
      step.2 = .error (.violation v) ∧ step.1.protocol = s.protocol) :
    Follows s.protocol (.ended ending) step := by
  have h := Nesting.protocol_close hs f
  rw [Follows, show s.protocol.next (.ended ending) = s.protocol.exit from rfl, h]
  rcases he : s.close f with ⟨after, v | _⟩
  · exact herr v (Nesting.close_refused he ▸ he)
  · exact hok after he

private theorem follows_settled {α : Type} {s : Nesting α} {o : Settlement}
    {step : Tracer × Except TraceError Unit}
    (hok : s.opened = 0 → step.2 = .ok () ∧ step.1.protocol = s.protocol)
    (herr : s.opened ≠ 0 →
      step.2 = .error (.violation (.settledOpen s.opened)) ∧ step.1.protocol = s.protocol) :
    Follows s.protocol (.settled o) step := by
  by_cases ho : s.opened = 0
  · simpa only [Follows, Protocol.next, Nesting.protocol, ho, if_true] using hok ho
  · simpa only [Follows, Protocol.next, Nesting.protocol, ho, if_false] using herr ho

theorem follows_calls (w : World) {t : CallTree} (ht : t.stack.Sound) (e : Event) :
    Follows t.stack.protocol e ((calls t).step w e) := by
  cases e with
  | entered e =>
    apply follows_enter (x := Frame.ofEntry e)
    · intro after kept h
      simp only [step, CallTree.step, h]
      exact ⟨trivial, rfl⟩
    · intro v h
      simp only [step, CallTree.step, h]
      exact ⟨trivial, rfl⟩
  | ended ending =>
    apply follows_close ht (f := (·.withEnding ending))
    · intro after h
      simp only [step, CallTree.step, h]
      exact ⟨trivial, rfl⟩
    · intro v h
      simp only [step, CallTree.step, h]
      exact ⟨trivial, rfl⟩
  | log l =>
    simp only [step, CallTree.step]
    split
    · exact ⟨rfl, Nesting.protocol_modifyCurrent _ _⟩
    · exact ⟨rfl, rfl⟩
  | settled o =>
    apply follows_settled
    · intro ho
      simp only [step, CallTree.step, ho, ne_eq, not_true_eq_false, if_false]
      exact ⟨trivial, rfl⟩
    · intro ho
      simp only [step, CallTree.step, ho, ne_eq, not_false_eq_true, if_true]
      exact ⟨trivial, rfl⟩
  | _ => exact ⟨rfl, rfl⟩

theorem follows_selectors (w : World) {s : Selectors} (hs : s.scopes.Sound) (e : Event) :
    Follows s.scopes.protocol e ((selectors s).step w e) := by
  cases e with
  | entered e =>
    apply follows_enter (x := ())
    · intro after kept h
      simp only [step, Selectors.step, h]
      exact ⟨trivial, rfl⟩
    · intro v h
      simp only [step, Selectors.step, h]
      exact ⟨trivial, rfl⟩
  | ended ending =>
    apply follows_close hs (f := id)
    · intro after h
      simp only [step, Selectors.step, h]
      exact ⟨trivial, rfl⟩
    · intro v h
      simp only [step, Selectors.step, h]
      exact ⟨trivial, rfl⟩
  | stack words =>
    refine ⟨rfl, ?_⟩
    simp only [step, Selectors.step, Selectors.stackStep]
    split
    · rfl
    · split <;> rfl
  | settled o =>
    apply follows_settled
    · intro ho
      simp only [step, Selectors.step, ho, ne_eq, not_true_eq_false, if_false]
      exact ⟨trivial, rfl⟩
    · intro ho
      simp only [step, Selectors.step, ho, ne_eq, not_false_eq_true, if_true]
      exact ⟨trivial, rfl⟩
  | _ => exact ⟨rfl, rfl⟩

/-- Accounts are looked at before an entry is checked, so this needs a view that can be read. -/
theorem follows_prestate {w : World} (hw : w.Readable) {p : Prestate} (hp : p.scopes.Sound)
    (e : Event) : Follows p.scopes.protocol e ((prestate p).step w e) := by
  cases e with
  | entered e =>
    obtain ⟨captured, hlook⟩ := Prestate.lookAll_of_readable hw p.captured
      (Prestate.entryTouches (if e.depth = 0 then p.facts.withTopEntry e else p.facts) e)
    apply follows_enter (x := if e.kind.inCallerContext then some e.sender
      else Prestate.targetOf (if e.depth = 0 then p.facts.withTopEntry e else p.facts) e)
    · intro after kept h
      simp only [step, Prestate.step, hlook, h]
      exact ⟨trivial, rfl⟩
    · intro v h
      simp only [step, Prestate.step, hlook, h]
      exact ⟨trivial, rfl⟩
  | ended ending =>
    obtain ⟨captured, hlook⟩ :=
      Prestate.lookAll_of_readable hw p.captured ending.created.toList
    apply follows_close hp (f := id)
    · intro after h
      simp only [step, Prestate.step, h, hlook]
      exact ⟨trivial, rfl⟩
    · intro v h
      simp only [step, Prestate.step, h]
      exact ⟨trivial, rfl⟩
  | stack words =>
    simp only [step, Prestate.step, Prestate.stackStep]
    split
    · exact ⟨rfl, rfl⟩
    · split
      · next a _ =>
        obtain ⟨after, h⟩ := Prestate.look_of_readable hw p.captured a
        rw [h]
        exact ⟨rfl, rfl⟩
      · exact ⟨rfl, rfl⟩
  | storage a key value =>
    obtain ⟨after, h⟩ := Prestate.look_of_readable hw p.captured a
    simp only [step, Prestate.step, h]
    exact ⟨rfl, rfl⟩
  | settled o =>
    apply follows_settled
    · intro ho
      simp only [step, Prestate.step, ho, ne_eq, not_true_eq_false, if_false]
      exact ⟨trivial, rfl⟩
    · intro ho
      simp only [step, Prestate.step, ho, ne_eq, not_false_eq_true, if_true]
      exact ⟨trivial, rfl⟩
  | _ => exact ⟨rfl, rfl⟩

/-- Every trace answers an event as the protocol does, and a refused event does not move it. -/
theorem follows_step {w : World} {t : Tracer} (hw : t.CanRead w) (ht : t.Sound) (e : Event) :
    Follows t.protocol e (t.step w e) := by
  cases t with
  | calls t => exact follows_calls w ht e
  | prestate p => exact follows_prestate hw ht e
  | selectors s => exact follows_selectors w ht e

/-! ### Runs -/

theorem canRead_step {w : World} {t : Tracer} (hw : t.CanRead w) (e : Event) :
    (t.step w e).1.CanRead w := by
  cases t with
  | prestate p => exact hw
  | _ => trivial

theorem sound_step (w : World) {t : Tracer} (ht : t.Sound) (e : Event) : (t.step w e).1.Sound := by
  cases t with
  | calls t => exact (t.moves_step e).sound ht
  | prestate p => exact (p.moves_step w e).sound ht
  | selectors s => exact (s.moves_step e).sound ht

theorem run_append (w : World) (t : Tracer) (first second : List Event) :
    t.run w (first ++ second) = (t.run w first).bind (·.run w second) := by
  induction first generalizing t with
  | nil => rfl
  | cons e rest ih =>
    simp only [List.cons_append, run]
    rcases t.step w e with ⟨after, fault | _⟩
    · rfl
    · exact ih after

theorem run_cons {w : World} {t after : Tracer} {e : Event} {rest : List Event}
    (h : t.run w (e :: rest) = .ok after) :
    (t.step w e).2 = .ok () ∧ (t.step w e).1.run w rest = .ok after := by
  rw [run] at h
  rcases hs : t.step w e with ⟨mid, fault | _⟩
  · rw [hs] at h; cases h
  · rw [hs] at h; exact ⟨rfl, h⟩

theorem run_prestate {w : World} {p : Prestate} {events : List Event} {after : Tracer}
    (h : (prestate p).run w events = .ok after) : ∃ q, after = prestate q := by
  induction events generalizing p with
  | nil => cases h; exact ⟨p, rfl⟩
  | cons e rest ih => exact ih (run_cons h).2

theorem next_of_accepted {w : World} {t : Tracer} (hw : t.CanRead w) (ht : t.Sound) {e : Event}
    (h : (t.step w e).2 = .ok ()) : t.protocol.next e = .ok (t.step w e).1.protocol := by
  have hf := follows_step hw ht e
  unfold Follows at hf
  cases hn : t.protocol.next e with
  | error v => rw [hn] at hf; rw [hf.1] at h; cases h
  | ok s => rw [hn] at hf; rw [hf.2]

/-- What the protocol accepts, every trace accepts. -/
theorem run_of_protocol {w : World} {t : Tracer} (hw : t.CanRead w) (ht : t.Sound)
    {events : List Event} {s : Protocol} (h : t.protocol.run events = .ok s) :
    ∃ after, t.run w events = .ok after ∧ after.protocol = s := by
  induction events generalizing t with
  | nil => cases h; exact ⟨t, rfl, rfl⟩
  | cons e rest ih =>
    have hf := follows_step hw ht e
    simp only [Protocol.run] at h
    unfold Follows at hf
    cases hn : t.protocol.next e with
    | error v => rw [hn] at h; cases h
    | ok next =>
      rw [hn] at h hf
      obtain ⟨haccepted, hnext⟩ := hf
      have hrest := ih (canRead_step hw e) (sound_step w ht e) (hnext ▸ h)
      obtain ⟨after, hrun, hafter⟩ := hrest
      refine ⟨after, ?_, hafter⟩
      rw [← hrun, run]
      rcases hstep : t.step w e with ⟨mid, answer⟩
      obtain rfl : answer = .ok () := by rw [← haccepted, hstep]
      rfl

end Tracer
end ExecutionTrace
