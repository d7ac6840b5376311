import ExecutionTrace.Proofs.Prestate.Capture
import ExecutionTrace.Proofs.Stepping

/-! What a prestate holds after any events, those included that it did not accept. An account comes
into the map as the view shows it and stays so, and a slot keeps the first value that was accepted
for it. -/
namespace ExecutionTrace

/-- The later account is the earlier one, with slots added at most. -/
structure Account.KeptIn (earlier later : Account) : Prop where
  balance : later.balance = earlier.balance
  nonce : later.nonce = earlier.nonce
  code : later.code = earlier.code
  storage : ∀ key value, earlier.storage.get? key = some value →
    later.storage.get? key = some value

/-- No account is lost or changed, except for slots that are added. -/
def Accounts.KeptIn (earlier later : Accounts) : Prop :=
  ∀ a account, earlier.get? a = some account →
    ∃ after, later.get? a = some after ∧ account.KeptIn after

private theorem Account.KeptIn.refl (account : Account) : account.KeptIn account :=
  ⟨rfl, rfl, rfl, fun _ _ h => h⟩

private theorem Account.KeptIn.trans {first second third : Account} (h : first.KeptIn second)
    (h' : second.KeptIn third) : first.KeptIn third where
  balance := h'.balance.trans h.balance
  nonce := h'.nonce.trans h.nonce
  code := h'.code.trans h.code
  storage key value hvalue := h'.storage key value (h.storage key value hvalue)

theorem Accounts.KeptIn.refl (accounts : Accounts) : accounts.KeptIn accounts :=
  fun _ account h => ⟨account, h, .refl account⟩

private theorem Accounts.KeptIn.trans {first second third : Accounts} (h : first.KeptIn second)
    (h' : second.KeptIn third) : first.KeptIn third := by
  intro a account ha
  obtain ⟨middle, hmiddle, hkept⟩ := h a account ha
  obtain ⟨last, hlast, hkept'⟩ := h' a middle hmiddle
  exact ⟨last, hlast, hkept.trans hkept'⟩

namespace Prestate

/-! ### One event -/

theorem kept_lookAll (w : World) (accounts : Accounts) (as : List Address) :
    accounts.KeptIn (lookAll w accounts as).1 := by
  intro a account ha
  obtain hsame | ⟨hnone, _⟩ := get?_lookAll w accounts as a
  · exact ⟨account, hsame.trans ha, .refl account⟩
  · rw [hnone] at ha
    cases ha

private theorem kept_noteSlot (accounts : Accounts) (e : Event) :
    accounts.KeptIn (noteSlot accounts e) := by
  cases e with
  | storage a' key' value' =>
    intro a account ha
    rw [noteSlot, OrdMap.get?_adjust]
    by_cases hself : a = a'
    · subst hself
      rw [if_pos rfl, ha]
      refine ⟨_, rfl, rfl, rfl, rfl, fun key value hvalue => ?_⟩
      rw [OrdMap.get?_insertNew]
      split
      · next hkey =>
        rw [← hkey, hvalue]
        rfl
      · exact hvalue
    · rw [if_neg hself]
      exact ⟨account, ha, .refl account⟩
  | _ => exact .refl accounts

theorem kept_step (w : World) (p : Prestate) (e : Event) :
    p.captured.KeptIn (p.step w e).1.captured := by
  rw [captured_step]
  exact (kept_lookAll w p.captured _).trans (kept_noteSlot _ e)

/-! ### All events -/

theorem kept_after (w : World) (p : Prestate) (events : List Event) :
    p.captured.KeptIn (Stepping.after (step w) p events).captured :=
  Stepping.invariant (P := fun later : Prestate => p.captured.KeptIn later.captured)
    (fun later e h => h.trans (kept_step w later e)) (.refl p.captured) events

theorem slot_after (w : World) (p : Prestate) (events : List Event) (a : Address) (key : Word) :
    (Stepping.after (step w) p events).slot a key =
      (p.slot a key).or
        ((Stepping.accepted (step w) p events).findSome? (Event.slotValue? a key)) := by
  induction events generalizing p with
  | nil => simp [Stepping.after, Stepping.accepted]
  | cons e rest ih =>
    have hrest : Stepping.after (step w) p (e :: rest) =
        Stepping.after (step w) (p.step w e).1 rest := rfl
    rw [hrest, ih, Stepping.accepted]
    split
    · next haccepted =>
      rw [slot_step haccepted, Option.or_assoc, List.findSome?_cons]
      cases e.slotValue? a key <;> rfl
    · next hrefused => rw [slot_step_of_error hrefused]

/-- What is to be said of a prestate that went through events and accepted some of them. -/
structure WriteOnce (w : World) (accepted : List Event) (p : Prestate) : Prop where
  /-- No event to come changes an account or a slot that is there. -/
  kept : ∀ later, p.captured.KeptIn (Stepping.after (step w) p later).captured
  /-- An account is as the view shows it, empty where the view has none. -/
  shown : ∀ a account, p.captured.get? a = some account →
    (w.occupied a = .ok true ∧ w.balance a = .ok account.balance ∧
        w.nonce a = .ok account.nonce ∧ w.code a = .ok account.code) ∨
      (w.occupied a = .ok false ∧ account.balance = 0 ∧ account.nonce = 0 ∧ account.code = [])
  unreadable : ∀ a fault, Account.read w a = .error fault → p.captured.get? a = none
  /-- A slot has the first value that was accepted for it. -/
  slot : ∀ a key, p.slot a key = accepted.findSome? (Event.slotValue? a key)

/-- Whatever events come, in whatever order and whether they are accepted or not, what a prestate
has captured is written once. -/
theorem writeOnce_after (w : World) (f : TxFacts) (events : List Event) :
    WriteOnce w (Stepping.accepted (step w) (start f) events)
      (Stepping.after (step w) (start f) events) := by
  have hempty : Captures w (start f).captured := fun a account ha => by cases ha
  have hcaptures : Captures w (Stepping.after (step w) (start f) events).captured :=
    Stepping.invariant (P := fun p : Prestate => Captures w p.captured)
      (fun _ e h => captures_step h e) hempty events
  refine
    { kept := kept_after w _
      shown := fun a account ha => ?_
      unreadable := fun a fault hfault => ?_
      slot := fun a key => ?_ }
  · obtain ⟨hthere, hbalance, hnonce, hcode, _⟩ | ⟨hnone, hblank⟩ :=
      Account.read_cases (hcaptures a account ha)
    · exact .inl ⟨hthere, hbalance, hnonce, hcode⟩
    · have hfields := Account.mk.inj hblank
      exact .inr ⟨hnone, hfields.1, hfields.2.1, hfields.2.2.1⟩
  · rw [Option.eq_none_iff_forall_ne_some]
    intro account ha
    have hread := hcaptures a account ha
    rw [hfault] at hread
    cases hread
  · have hnew : (start f).slot a key = none := rfl
    rw [slot_after, hnew, Option.none_or]

end Prestate
end ExecutionTrace
