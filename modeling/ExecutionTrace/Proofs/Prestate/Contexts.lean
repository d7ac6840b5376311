import ExecutionTrace.Proofs.CallTree.Report
import ExecutionTrace.Proofs.Protocol
import ExecutionTrace.Proofs.Snapshots

/-! What a prestate knows after the events that it accepted, told from the events alone: the facts
of the transaction, the accounts on whose storage the open actions run, and the operation whose
snapshots are arriving. -/
namespace ExecutionTrace

namespace TxFacts

/-- The account an entered action runs against: the one it names, else the one its salt fixes. The
address of a top creation may be known beforehand. -/
def accountOf (f : TxFacts) (e : Entry) : Option Address :=
  e.target.or (e.saltedTarget.or (if e.depth = 0 then f.created else none))

def contextOf (f : TxFacts) (e : Entry) : Option Address :=
  if e.kind.inCallerContext then some e.sender else f.accountOf e

/-- The storage contexts of the open actions after one more event, innermost first. -/
def moveContexts (f : TxFacts) (contexts : List (Option Address)) :
    Event → List (Option Address)
  | .entered e => f.contextOf e :: contexts
  | .ended _ => contexts.tail
  | _ => contexts

/-- The storage context of the innermost action that is open after events, if it is known. -/
def contextAfter (f : TxFacts) (events : List Event) : Option Address :=
  (events.foldl f.moveContexts []).head?.join

/-- The facts after events, at whose start `opened` actions are open. A creation that returns tells
its address. -/
def after (f : TxFacts) : (opened : Nat) → List Event → TxFacts
  | _, [] => f
  | opened, .entered e :: rest =>
    (if e.depth = 0 then f.withTopEntry e else f).after (opened + 1) rest
  | opened, .ended (.returned _ _ (some created)) :: rest =>
    (if opened = 1 ∧ f.isCreation then { f with created := some created } else f).after
      (opened - 1) rest
  | opened, .ended _ :: rest => f.after (opened - 1) rest
  | opened, .settled o :: rest => (f.withSettlement o).after opened rest
  | opened, _ :: rest => f.after opened rest

end TxFacts

namespace Prestate

theorem targetOf_eq (f : TxFacts) (e : Entry) : targetOf f e = f.accountOf e := by
  unfold targetOf TxFacts.accountOf
  rw [Entry.entryTarget_eq]
  cases e.target <;> cases e.saltedTarget <;> rfl

/-! ### One step -/

theorem scopes_step {w : World} {p : Prestate} {e : Event} (h : (p.step w e).2 = .ok ()) :
    match e with
    | .entered e => ∃ kept, p.scopes.enter e.depth ((p.learned (.entered e)).contextOf e) =
        ((p.step w (.entered e)).1.scopes, .ok kept)
    | .ended ending => p.scopes.close id = ((p.step w (.ended ending)).1.scopes, .ok ())
    | e => (p.step w e).1.scopes = p.scopes := by
  have hscopes := (takes_step h).scopes
  cases e with
  | entered e =>
    rw [Nests, targetOf_eq] at hscopes
    exact hscopes
  | _ => exact hscopes

/-- A prestate that started from `f`: every open action has its context, and before the top action
the created address is the one known beforehand. -/
structure From (f : TxFacts) (p : Prestate) : Prop where
  whole : p.scopes.Whole
  precompiled : p.facts.precompiled = f.precompiled
  created : p.scopes.opened = 0 → p.scopes.root = none → p.facts.created = f.created

theorem from_start (f : TxFacts) : From f (start f) :=
  ⟨Nesting.Whole.start, rfl, fun _ _ => rfl⟩

theorem accountOf_learned {f : TxFacts} {p : Prestate} {e : Entry}
    (h : e.depth = 0 → p.facts.created = f.created) :
    (p.learned (.entered e)).accountOf e = f.accountOf e := by
  unfold TxFacts.accountOf learned
  cases ht : e.target with
  | some target => rfl
  | none =>
    by_cases hd : e.depth = 0
    · simp [hd, TxFacts.withTopEntry, ht, h hd]
    · simp [hd]

private theorem frames_step {f : TxFacts} {w : World} {p : Prestate} (hp : From f p) {e : Event}
    (h : (p.step w e).2 = .ok ()) :
    (p.step w e).1.scopes.frames = f.moveContexts p.scopes.frames e := by
  have hscopes := scopes_step h
  cases e with
  | entered e =>
    obtain ⟨kept, henter⟩ := hscopes
    obtain ⟨hopened, htop, hafter⟩ := Nesting.enter_of_whole hp.whole henter
    have haccount : (p.learned (.entered e)).accountOf e = f.accountOf e :=
      accountOf_learned fun hd => hp.created (hopened.symm.trans hd) (htop hd)
    rw [hafter]
    simp only [TxFacts.moveContexts, TxFacts.contextOf, haccount]
  | ended ending =>
    obtain ⟨_, hf, _, hafter⟩ | ⟨_, parent, rest, hf, _, hafter⟩ :=
      Nesting.close_of_whole hp.whole hscopes
    · rw [hafter, hf]
      rfl
    · rw [hafter, hf]
      rfl
  | _ => exact congrArg Nesting.frames hscopes

theorem from_step {f : TxFacts} {w : World} {p : Prestate} (hp : From f p) {e : Event}
    (h : (p.step w e).2 = .ok ()) : From f (p.step w e).1 := by
  have hwhole := (p.moves_step w e).whole hp.whole
  have hscopes := scopes_step h
  have hfacts := (takes_step h).facts
  cases e with
  | entered e =>
    obtain ⟨kept, henter⟩ := hscopes
    obtain ⟨_, _, hafter⟩ := Nesting.enter_of_whole hp.whole henter
    refine ⟨hwhole, ?_, fun hz => ?_⟩
    · rw [hfacts, learned]
      split <;> exact hp.precompiled
    · rw [hafter] at hz
      exact absurd hz (Nat.succ_ne_zero _)
  | ended ending =>
    refine ⟨hwhole, ?_, fun hz hr => ?_⟩
    · rw [hfacts, ← hp.precompiled]
      rcases ending with ⟨_, _, _ | created⟩ | _ | _
      · rfl
      · rw [learned]
        split <;> rfl
      · rfl
      · rfl
    · -- once the top action has ended, there is a root
      obtain ⟨_, _, _, hafter⟩ | ⟨_, _, _, _, hmany, hafter⟩ :=
        Nesting.close_of_whole hp.whole hscopes
      · rw [hafter] at hr
        cases hr
      · rw [hafter, hmany] at hz
        cases hz
  | _ =>
    refine ⟨hwhole, ?_, fun hz hr => ?_⟩
    · rw [hfacts]
      exact hp.precompiled
    · rw [hscopes] at hz hr
      rw [hfacts]
      exact hp.created hz hr

/-- The facts at the end of a stream are those after its first event, followed through the rest. -/
private theorem after_step {w : World} {p : Prestate} (hp : p.scopes.Whole) {e : Event}
    (h : (p.step w e).2 = .ok ()) (rest : List Event) :
    (p.step w e).1.facts.after (p.step w e).1.scopes.opened rest =
      p.facts.after p.scopes.opened (e :: rest) := by
  have hscopes := scopes_step h
  rw [(takes_step h).facts]
  cases e with
  | entered e =>
    obtain ⟨kept, henter⟩ := hscopes
    obtain ⟨_, _, hafter⟩ := Nesting.enter_of_whole hp henter
    rw [hafter]
    rfl
  | ended ending =>
    have hopened : (p.step w (.ended ending)).1.scopes.opened = p.scopes.opened - 1 :=
      (Nat.sub_eq_of_eq_add (Nesting.opened_of_close hscopes)).symm
    rw [hopened]
    rcases ending with ⟨_, _, _ | created⟩ | _ | _ <;> rfl
  | _ =>
    rw [hscopes]
    rfl

/-! ### A run -/

theorem run_cons_iff {w : World} {p : Prestate} {e : Event} {rest : List Event} {after : Tracer} :
    (Tracer.prestate p).run w (e :: rest) = .ok after ↔
      (p.step w e).2 = .ok () ∧ (Tracer.prestate (p.step w e).1).run w rest = .ok after := by
  rw [Tracer.run, Tracer.step]
  rcases p.step w e with ⟨next, err | _⟩ <;> simp

theorem exists_run_of_protocol {w : World} (hw : w.Readable) (f : TxFacts) {events : List Event}
    {s : Protocol} (h : Protocol.run {} events = .ok s) :
    ∃ p, (Tracer.prestate (.start f)).run w events = .ok (.prestate p) := by
  obtain ⟨after, hrun, _⟩ := Tracer.run_of_protocol (t := .prestate (.start f)) hw
    (Nesting.sound_start _) h
  obtain ⟨p, rfl⟩ := Tracer.run_prestate hrun
  exact ⟨p, hrun⟩

theorem exists_of_run_append {w : World} {p q : Prestate} {first second : List Event}
    (hrun : (Tracer.prestate p).run w (first ++ second) = .ok (.prestate q)) :
    ∃ mid, (Tracer.prestate p).run w first = .ok (.prestate mid) ∧
      (Tracer.prestate mid).run w second = .ok (.prestate q) := by
  rw [Tracer.run_append] at hrun
  cases hfirst : (Tracer.prestate p).run w first with
  | error err => rw [hfirst] at hrun; cases hrun
  | ok t =>
    obtain ⟨mid, rfl⟩ := Tracer.run_prestate hfirst
    rw [hfirst] at hrun
    exact ⟨mid, rfl, hrun⟩

/-- What a prestate knows after events follows from the events. -/
theorem known_of_run {f : TxFacts} {w : World} {events : List Event} {p q : Prestate}
    (hp : From f p) (hrun : (Tracer.prestate p).run w events = .ok (.prestate q)) :
    From f q ∧ q.scopes.frames = events.foldl f.moveContexts p.scopes.frames ∧
      q.op = events.foldl PendingOp.next p.op ∧
      q.facts = p.facts.after p.scopes.opened events := by
  induction events generalizing p with
  | nil => cases hrun; exact ⟨hp, rfl, rfl, rfl⟩
  | cons e rest ih =>
    obtain ⟨hstep, hrest⟩ := run_cons_iff.mp hrun
    obtain ⟨hq, hframes, hop, hfacts⟩ := ih (from_step hp hstep) hrest
    refine ⟨hq, ?_, ?_, ?_⟩
    · rw [hframes, frames_step hp hstep, List.foldl_cons]
    · rw [hop, (takes_step hstep).op, List.foldl_cons]
    · rw [hfacts, after_step hp.whole hstep]

theorem context_of_run {f : TxFacts} {w : World} {events : List Event} {p : Prestate}
    (hrun : (Tracer.prestate (.start f)).run w events = .ok (.prestate p)) :
    p.context = f.contextAfter events := by
  obtain ⟨_, hframes, _, _⟩ := known_of_run (from_start f) hrun
  rw [context, Nesting.current, hframes]
  rfl

end Prestate
end ExecutionTrace
