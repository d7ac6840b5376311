import ExecutionTrace.Proofs.Protocol

/-! Traces that go on after an event they refused. On any events, nested as those of an execution
or not, all of them give the answers of one automaton, whose state is the number of open actions
and whether a top action has ended. -/
namespace ExecutionTrace

namespace Protocol

/-- An entry stands at the number of open actions and does not begin a second top action, an ending
has an action to end, and a settlement comes when no action is open. -/
def Accepts (s : Protocol) : Event → Prop
  | .entered e => e.depth = s.opened ∧ ¬(e.depth = 0 ∧ s.finished = true)
  | .ended _ => 0 < s.opened
  | .settled _ => s.opened = 0
  | _ => True

instance (s : Protocol) : (e : Event) → Decidable (s.Accepts e)
  | .entered e =>
    inferInstanceAs (Decidable (e.depth = s.opened ∧ ¬(e.depth = 0 ∧ s.finished = true)))
  | .ended _ => inferInstanceAs (Decidable (0 < s.opened))
  | .settled _ => inferInstanceAs (Decidable (s.opened = 0))
  | .opStarted _ | .opGas _ | .opFailed _ | .stack _ | .memory _ | .storage _ _ _ | .log _
  | .refund _ => isTrue trivial

def moved (s : Protocol) : Event → Protocol
  | .entered _ => { s with opened := s.opened + 1 }
  | .ended _ => { opened := s.opened - 1, finished := s.finished || s.opened - 1 = 0 }
  | _ => s

def refusal (s : Protocol) : Event → Violation
  | .entered e => if e.depth = s.opened then .secondTop else .entryDepth e.depth s.opened
  | .settled _ => .settledOpen s.opened
  | _ => .unmatchedEnding

def answers (s : Protocol) : List Event → List (Except TraceError Unit)
  | [] => []
  | e :: rest =>
    if s.Accepts e then .ok () :: (s.moved e).answers rest
    else .error (.violation (s.refusal e)) :: s.answers rest

private theorem next_of_accepts {s : Protocol} {e : Event} (h : s.Accepts e) :
    s.next e = .ok (s.moved e) := by
  cases e with
  | entered e =>
    obtain ⟨hdepth, htop⟩ := h
    rw [next, enter, if_neg (not_not_intro hdepth), if_neg htop]
    rfl
  | ended ending =>
    have hopen : s.opened ≠ 0 := Nat.ne_of_gt h
    have hlast : s.opened - 1 = 0 ↔ s.opened = 1 := by omega
    rw [next, exit, if_neg hopen]
    simp only [moved, hlast]
  | settled o =>
    rw [next]
    exact if_pos h
  | _ => rfl

private theorem next_of_not_accepts {s : Protocol} {e : Event} (h : ¬s.Accepts e) :
    s.next e = .error (s.refusal e) := by
  cases e with
  | entered e =>
    rw [next, enter, refusal]
    by_cases hdepth : e.depth = s.opened
    · have htop : e.depth = 0 ∧ s.finished = true :=
        Decidable.not_not.mp fun htop => h ⟨hdepth, htop⟩
      rw [if_neg (not_not_intro hdepth), if_pos htop, if_pos hdepth]
    · rw [if_pos hdepth, if_neg hdepth]
  | ended ending =>
    have hopen : s.opened = 0 := Nat.eq_zero_of_not_pos h
    rw [next, exit, if_pos hopen]
    rfl
  | settled o =>
    rw [next]
    exact if_neg h
  | _ => exact absurd trivial h

end Protocol

namespace Tracer

def answers (w : World) (t : Tracer) : List Event → List (Except TraceError Unit)
  | [] => []
  | e :: rest => (t.step w e).2 :: (t.step w e).1.answers w rest

private theorem step_of_accepts {w : World} {t : Tracer} (hread : t.CanRead w) (ht : t.Sound)
    {e : Event} (h : t.protocol.Accepts e) :
    (t.step w e).2 = .ok () ∧ (t.step w e).1.protocol = t.protocol.moved e := by
  have hfollows := follows_step hread ht e
  rw [Follows, Protocol.next_of_accepts h] at hfollows
  exact hfollows

private theorem step_of_not_accepts {w : World} {t : Tracer} (hread : t.CanRead w) (ht : t.Sound)
    {e : Event} (h : ¬t.protocol.Accepts e) :
    (t.step w e).2 = .error (.violation (t.protocol.refusal e)) ∧
      (t.step w e).1.protocol = t.protocol := by
  have hfollows := follows_step hread ht e
  rw [Follows, Protocol.next_of_not_accepts h] at hfollows
  exact hfollows

/-- What a trace answers from now on is fixed by the state of the automaton. -/
theorem answers_eq {w : World} {t : Tracer} (hread : t.CanRead w) (ht : t.Sound)
    (events : List Event) : t.answers w events = t.protocol.answers events := by
  induction events generalizing t with
  | nil => rfl
  | cons e rest ih =>
    have hrest := ih (canRead_step hread e) (sound_step w ht e)
    rw [answers, Protocol.answers, hrest]
    by_cases h : t.protocol.Accepts e
    · obtain ⟨hanswer, hstate⟩ := step_of_accepts hread ht h
      rw [if_pos h, hanswer, hstate]
    · obtain ⟨hanswer, hstate⟩ := step_of_not_accepts hread ht h
      rw [if_neg h, hanswer, hstate]

/-- A new trace, of whatever kind and with whatever settings, answers any events as the automaton
does from its initial state. So all traces accept the same events and refuse the others for the
same reason, as long as what they look at can be read. -/
theorem answers_of_fresh {w : World} {t : Tracer} (hnew : t.Fresh) (hread : t.CanRead w)
    (events : List Event) : t.answers w events = Protocol.answers {} events := by
  rw [answers_eq hread hnew.sound, hnew.protocol]

private def entryAt (depth : Nat) : Entry :=
  { depth, kind := .call, sender := 1, target := some 2, value := 0, gas := 100, input := []
    salt := none }

private def outcome : Settlement := ⟨true, 0, [], [], none⟩

/-- An ending without an entry, an entry too deep, a settlement too early and a second top action,
with what is accepted in between. -/
private def unruly : List Event :=
  [.ended (.returned 0 [] none), .entered (entryAt 1), .entered (entryAt 0), .settled outcome,
    .ended (.returned 0 [] none), .entered (entryAt 0), .settled outcome]

private def unruled : List (Except TraceError Unit) :=
  [.error (.violation .unmatchedEnding), .error (.violation (.entryDepth 1 0)), .ok (),
    .error (.violation (.settledOpen 1)), .ok (), .error (.violation .secondTop), .ok ()]

theorem answers_of_unruly_events :
    (calls (.start { onlyTopCall := true } {})).answers .blank unruly = unruled ∧
      (prestate (.start {})).answers .blank unruly = unruled := by
  have hrule : Protocol.answers {} unruly = unruled := rfl
  constructor
  · rw [answers_of_fresh ⟨{}, .inl ⟨_, rfl⟩⟩ trivial, hrule]
  · rw [answers_of_fresh ⟨{}, .inr (.inl rfl)⟩ World.readable_blank, hrule]

end Tracer
end ExecutionTrace
