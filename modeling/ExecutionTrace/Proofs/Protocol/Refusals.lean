import ExecutionTrace.Proofs.Prestate.WriteOnce
import ExecutionTrace.Proofs.Protocol

/-! What an event leaves behind in a trace that refuses it. An ending and a settlement leave
nothing. An entry has told the facts of the transaction, and has made a prestate look at accounts,
before its place among the open actions is checked. -/
namespace ExecutionTrace

/-- What is known of a transaction after an entry, whether or not the entry is accepted. -/
def TxFacts.told (f : TxFacts) (e : Entry) : TxFacts :=
  if e.depth = 0 then f.withTopEntry e else f

def Event.isEntry : Event → Bool
  | .entered _ => true
  | _ => false

namespace Tracer

def withFacts (f : TxFacts) : Tracer → Tracer
  | calls t => calls { t with facts := f }
  | prestate p => prestate { p with facts := f }
  | selectors s => selectors { s with facts := f }

/-- The trace after a look at accounts, which only a prestate takes. -/
def looking (w : World) (accounts : List Address) : Tracer → Tracer
  | prestate p => prestate { p with captured := (Prestate.lookAll w p.captured accounts).1 }
  | t => t

def captured : Tracer → Accounts
  | prestate p => p.captured
  | _ => ∅

/-- What an entry leaves behind in a trace that refuses it. -/
def leftBy (w : World) (t : Tracer) (e : Entry) : Tracer :=
  (t.withFacts (t.facts.told e)).looking w (Prestate.entryTouches (t.facts.told e) e)

private theorem withFacts_facts (t : Tracer) : t.withFacts t.facts = t := by
  cases t <;> rfl

private theorem told_of_inner {e : Entry} (h : e.depth ≠ 0) (f : TxFacts) : f.told e = f := if_neg h

/-- A refused entry below the top leaves nothing behind but accounts. -/
private theorem leftBy_of_inner (w : World) {t : Tracer} {e : Entry} (h : e.depth ≠ 0) :
    t.leftBy w e = t.looking w (Prestate.entryTouches t.facts e) := by
  rw [leftBy, told_of_inner h, withFacts_facts]

private theorem looking_of_not_prestate (w : World) {t : Tracer} (h : t.name ≠ .prestate)
    (accounts : List Address) : t.looking w accounts = t := by
  cases t with
  | prestate p => exact absurd rfl h
  | _ => rfl

private theorem kept_leftBy (w : World) (t : Tracer) (e : Entry) :
    t.captured.KeptIn (t.leftBy w e).captured := by
  cases t with
  | prestate p => exact Prestate.kept_lookAll w p.captured _
  | _ => exact .refl ∅

/-! ### One event -/

theorem step_of_refused_entry {w : World} {t : Tracer} {e : Entry} {v : Violation}
    (h : (t.step w (.entered e)).2 = .error (.violation v)) :
    (t.step w (.entered e)).1 = t.leftBy w e := by
  cases t with
  | calls t =>
    simp only [step, CallTree.step] at h ⊢
    split at h
    · cases h
    · next henter =>
      rw [Nesting.enter_refused henter]
      rfl
  | prestate p =>
    simp only [step, Prestate.step] at h ⊢
    split at h
    · cases h
    · next hlook =>
      split at h
      · cases h
      · next henter =>
        rw [Nesting.enter_refused henter]
        exact congrArg (fun captured => prestate { p with facts := _, captured })
          (congrArg Prod.fst hlook).symm
  | selectors s =>
    simp only [step, Selectors.step] at h ⊢
    split at h
    · cases h
    · next henter =>
      rw [Nesting.enter_refused henter]
      rfl

theorem step_of_refused_other {w : World} {t : Tracer} {e : Event} (he : e.isEntry = false)
    {v : Violation} (h : (t.step w e).2 = .error (.violation v)) : (t.step w e).1 = t := by
  cases t with
  | calls t =>
    cases e with
    | entered e => cases he
    | ended ending =>
      simp only [step, CallTree.step] at h ⊢
      split at h
      · next hclose => rw [Nesting.close_refused hclose]
      · cases h
    | settled o =>
      simp only [step, CallTree.step] at h ⊢
      split at h
      · next hopened => rw [if_pos hopened]
      · cases h
    | _ => cases h
  | prestate p =>
    cases e with
    | entered e => cases he
    | ended ending =>
      simp only [step, Prestate.step] at h ⊢
      split at h
      · next hclose => rw [Nesting.close_refused hclose]
      · split at h <;> cases h
    | stack words =>
      simp only [step, Prestate.step, Prestate.stackStep] at h
      split at h
      · cases h
      · split at h
        · split at h <;> cases h
        · cases h
    | storage a key value =>
      simp only [step, Prestate.step] at h
      split at h <;> cases h
    | settled o =>
      simp only [step, Prestate.step] at h ⊢
      split at h
      · next hopened => rw [if_pos hopened]
      · cases h
    | _ => cases h
  | selectors s =>
    cases e with
    | entered e => cases he
    | ended ending =>
      simp only [step, Selectors.step] at h ⊢
      split at h
      · cases h
      · next hclose => rw [Nesting.close_refused hclose]
    | settled o =>
      simp only [step, Selectors.step] at h ⊢
      split at h
      · next hopened => rw [if_pos hopened]
      · cases h
    | _ => cases h

/-- An ending or a settlement that is refused leaves a trace as it was, and an entry below the top
leaves the tree of calls and the histogram as they were. A refused top entry tells its facts all the
same, and a prestate has looked at the accounts of any entry, in addition to those it had. -/
theorem step_of_violation (w : World) (t : Tracer) (e : Event) {v : Violation}
    (h : (t.step w e).2 = .error (.violation v)) :
    (e.isEntry = false → (t.step w e).1 = t) ∧
      ∀ entry, e = .entered entry →
        (t.step w e).1 = t.leftBy w entry ∧
        t.captured.KeptIn (t.step w e).1.captured ∧
        (entry.depth ≠ 0 → t.name ≠ .prestate → (t.step w e).1 = t) := by
  refine ⟨fun he => step_of_refused_other he h, ?_⟩
  rintro entry rfl
  have hleft := step_of_refused_entry h
  refine ⟨hleft, ?_, fun hinner hname => ?_⟩
  · rw [hleft]
    exact kept_leftBy w t entry
  · rw [hleft, leftBy_of_inner w hinner, looking_of_not_prestate w hname]

private def topCall (input : Bytes) : Entry :=
  { depth := 0, kind := .call, sender := 1, target := some 0xbeef, value := 0, gas := 100, input
    salt := none }

private def callOpened : Tracer :=
  Stepping.after (step .blank) (selectors (.start {})) [.entered (topCall [0xaa, 0xbb, 0xcc, 0xdd])]

theorem step_of_violation_by_deep_call :
    (callOpened.step .blank (.entered { topCall [1, 2, 3, 4] with depth := 2 })).2 =
        .error (.violation (.entryDepth 2 1)) ∧
      (callOpened.step .blank (.entered { topCall [1, 2, 3, 4] with depth := 2 })).1 =
        callOpened := by
  have hrefused : (callOpened.step .blank (.entered { topCall [1, 2, 3, 4] with depth := 2 })).2 =
      .error (.violation (.entryDepth 2 1)) := rfl
  obtain ⟨_, hentry⟩ := step_of_violation .blank callOpened _ hrefused
  obtain ⟨_, _, hsame⟩ := hentry _ rfl
  exact ⟨hrefused, hsame (by decide) (by decide)⟩

private def callEnded : Tracer :=
  Stepping.after (step .blank) callOpened [.ended (.returned 50 [] none)]

/-- A second top call is refused, and yet the histogram then counts it in place of the first. -/
theorem refused_top_replaces_first :
    (callEnded.step .blank (.entered (topCall [0x11, 0x22, 0x33, 0x44]))).2 =
        .error (.violation .secondTop) ∧
      (callEnded.result .blank).map TraceResult.toJson =
        .ok (.obj [("0xaabbccdd-0", .int 1)]) ∧
      ((callEnded.step .blank (.entered (topCall [0x11, 0x22, 0x33, 0x44]))).1.result .blank).map
          TraceResult.toJson = .ok (.obj [("0x11223344-0", .int 1)]) ∧
      (callEnded.step .blank (.entered (topCall [0x11, 0x22, 0x33, 0x44]))).1 ≠ callEnded := by
  refine ⟨rfl, rfl, rfl, fun hsame => ?_⟩
  have hinput := congrArg (fun t : Tracer => t.facts.input) hsame
  cases hinput

/-! ### All events -/

private theorem violation_of_error {w : World} {t : Tracer} (hread : t.CanRead w) (ht : t.Sound)
    {e : Event} {err : TraceError} (h : (t.step w e).2 = .error err) : ∃ v, err = .violation v := by
  have hfollows := follows_step hread ht e
  unfold Follows at hfollows
  split at hfollows
  · rw [hfollows.1] at h
    cases h
  · next v _ =>
    rw [hfollows.1] at h
    cases h
    exact ⟨v, rfl⟩

/-- Where no entry is refused, a trace that goes on after the events it refuses ends up as if they
had never come. -/
private theorem after_accepted {w : World} {t : Tracer} (hread : t.CanRead w) (ht : t.Sound)
    {events : List Event}
    (h : ∀ before entry rest, events = before ++ .entered entry :: rest →
      ((Stepping.after (step w) t before).step w (.entered entry)).2 = .ok ()) :
    Stepping.after (step w) t (Stepping.accepted (step w) t events) =
      Stepping.after (step w) t events := by
  induction events generalizing t with
  | nil => rfl
  | cons e rest ih =>
    have hrest : ∀ before entry later, rest = before ++ .entered entry :: later →
        ((Stepping.after (step w) (t.step w e).1 before).step w (.entered entry)).2 = .ok () := by
      intro before entry later hsplit
      exact h (e :: before) entry later (congrArg (e :: ·) hsplit)
    have hlater := ih (canRead_step hread e) (sound_step w ht e) hrest
    rw [Stepping.accepted]
    split
    · exact hlater
    · next err hrefused =>
      obtain ⟨v, rfl⟩ := violation_of_error hread ht hrefused
      have hother : e.isEntry = false := by
        cases e with
        | entered entry =>
          have haccepted := h [] entry rest rfl
          rw [Stepping.after, List.foldl_nil, hrefused] at haccepted
          cases haccepted
        | _ => rfl
      have hsame := step_of_refused_other hother hrefused
      rw [hsame] at hlater ⊢
      rw [hlater]
      exact congrArg (Stepping.after (step w) · rest) hsame.symm

end Tracer
end ExecutionTrace
