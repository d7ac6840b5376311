import ExecutionTrace.Proofs.Prestate.Reconcile

/-! Nonces of a prestate. The view counts the transaction of the sender and the result takes it
back. Both stop at an end of their range, so the two cancel for every nonce but the largest. -/
namespace ExecutionTrace

/-- A nonce that was counted up and back. The largest cannot be counted up. -/
private theorem satSub64_satAdd64_one (n : UInt64) :
    satSub64 (satAdd64 n 1) 1 =
      if n = 0xffffffffffffffff then 0xfffffffffffffffe else n := by
  have hone : (1 : UInt64).toNat = 1 := rfl
  have hrange := n.toNat_lt
  apply UInt64.toNat_inj.mp
  rw [toNat_satSub64, toNat_satAdd64, hone]
  split
  · next hlargest => rw [hlargest]; rfl
  · next hsmaller =>
    have hbelow : n.toNat ≠ 0xffffffffffffffff := fun h => hsmaller (UInt64.toNat_inj.mp h)
    omega

namespace Prestate

open World

/-- An accepted event tells of no other sender, unless it is an entry of a top action. -/
private theorem sender_step {w : World} {p : Prestate} {e : Event} (h : (p.step w e).2 = .ok ())
    {sender : Address} (hsender : p.facts.sender = sender)
    (htop : ∀ entry, e = .entered entry → entry.depth = 0 → entry.sender = sender) :
    (p.step w e).1.facts.sender = sender := by
  rw [(takes_step h).facts]
  cases e with
  | entered entry =>
    simp only [learned]
    split
    · next hdepth => exact htop entry rfl hdepth
    · exact hsender
  | ended ending =>
    rcases ending with ⟨_, _, _ | created⟩ | _ | _
    · exact hsender
    · simp only [learned]
      split <;> exact hsender
    · exact hsender
    · exact hsender
  | _ => exact hsender

private theorem sender_run {w : World} {sender : Address} {events : List Event} {p : Prestate}
    (hsender : p.facts.sender = sender) (hcap : Captures w p.captured)
    (htop : ∀ entry, .entered entry ∈ events → entry.depth = 0 → entry.sender = sender)
    {q : Prestate} (h : (Tracer.prestate p).run w events = .ok (.prestate q)) :
    q.facts.sender = sender ∧ Captures w q.captured := by
  induction events generalizing p with
  | nil => cases h; exact ⟨hsender, hcap⟩
  | cons e rest ih =>
    obtain ⟨haccepted, hrest⟩ := Tracer.run_cons h
    have hfirst := sender_step haccepted hsender fun entry he =>
      htop entry (he ▸ List.mem_cons_self)
    exact ih hfirst (captures_step hcap e)
      (fun entry he => htop entry (List.mem_cons_of_mem _ he)) hrest

/-- An account as the settled view shows it has the nonce of the database, with the transaction of
the sender counted. -/
private theorem nonce_of_captured {db : Database} {f : TxFacts} {o : Settlement}
    {accounts : Accounts} (hcap : Captures (settled db f o) accounts) {a : Address}
    {account : Account} (ha : accounts.get? a = some account) {n : UInt64}
    (hn : (ofDatabase db).nonce a = .ok n) :
    account.nonce = satAdd64 n (if a = f.sender then 1 else 0) := by
  obtain ⟨_, _, hnonce, _, _⟩ | ⟨hnone, hempty⟩ := Account.read_cases (hcap a account ha)
  · rw [settled_nonce hn] at hnonce
    exact (Except.ok.inj hnonce).symm
  · -- an account that does not exist is not the sender's
    obtain ⟨_, hother, _, hnone⟩ := occupied_of_settled_false hnone
    rw [(ofDatabase_of_not_occupied hnone).2.1] at hn
    cases hn
    rw [(Account.mk.inj hempty).2.1, if_neg hother]
    rfl

/-- The prestate of a settled transaction shows every account it lists with the nonce that the
database holds, whatever the events between touch and whoever else the sender is, with one
exception: a sender with the largest nonce is shown with the one below. -/
theorem nonces_of_output {db : Database} (hdb : (ofDatabase db).Readable) {f : TxFacts}
    {o : Settlement} {events : List Event}
    (htop : ∀ entry, .entered entry ∈ events → entry.depth = 0 → entry.sender = f.sender)
    {p : Prestate}
    (hrun : (Tracer.prestate (.start f)).run (settled db f o) (events ++ [.settled o]) =
      .ok (.prestate p)) :
    ∃ accounts, p.output (settled db f o) = .ok accounts ∧
      ∀ a account, accounts.get? a = some account → ∃ n, (ofDatabase db).nonce a = .ok n ∧
        account.nonce =
          if a = f.sender ∧ n = 0xffffffffffffffff then 0xfffffffffffffffe else n := by
  have hentries : ∀ entry, .entered entry ∈ events ++ [Event.settled o] → entry.depth = 0 →
      entry.sender = f.sender := by
    intro entry hentry
    rcases List.mem_append.mp hentry with hbefore | hlast
    · exact htop entry hbefore
    · cases List.mem_singleton.mp hlast
  have hstart : (start f).facts.sender = f.sender := rfl
  obtain ⟨hsender, hcap⟩ := sender_run hstart (fun _ _ h => by cases h) hentries hrun
  obtain ⟨accounts, hlook⟩ := lookAll_of_readable (settled_readable hdb) p.captured
    p.facts.parties
  have haccounts : Captures (settled db f o) accounts := by
    have hlooked := captures_lookAll hcap p.facts.parties
    rwa [hlook] at hlooked
  refine ⟨reconcile p.facts accounts, by simp only [output, hlook], ?_⟩
  intro a account ha
  rw [get?_reconcile] at ha
  split at ha
  · cases ha
  · obtain ⟨seen, hseen, rfl⟩ := Option.map_eq_some_iff.mp ha
    obtain ⟨n, hn⟩ := hdb.nonce a
    refine ⟨n, hn, ?_⟩
    simp only [restored, nonce_of_captured haccounts hseen hn, hsender]
    by_cases hs : a = f.sender
    · simp only [hs, true_and, if_true]
      exact satSub64_satAdd64_one n
    · simp only [hs, false_and, if_false]
      exact satAdd64_zero n

private def worn : Database where
  account _ :=
    .ok (some { balance := 1000, nonce := 0xffffffffffffffff, codeHash := 0, code := none })
  code _ := .ok []
  storage _ _ := .ok 0

private def lastTransfer : TxFacts :=
  { sender := 7, target := some 8, value := 5, coinbase := some 8 }

private def lastSettlement : Settlement :=
  { success := true, gasUsed := 21000, output := [], logs := [], failure := none }

private def lastEvents : List Event :=
  [.entered
      { depth := 0, kind := .call, sender := 7, target := some 8, value := 5
        gas := 9000, input := [], salt := none },
    .ended (.returned 9000 [] none)]

private theorem readable_worn : (ofDatabase worn).Readable :=
  ⟨fun _ => ⟨true, rfl⟩, fun _ => ⟨1000, rfl⟩, fun _ => ⟨0xffffffffffffffff, rfl⟩,
    fun _ => ⟨[], rfl⟩⟩

private theorem entered_lastEvents (entry : Entry) (h : .entered entry ∈ lastEvents) :
    lastTransfer.Entered entry := by
  rcases List.mem_cons.mp h with heq | hrest
  · cases heq
    exact ⟨rfl, rfl, rfl, rfl⟩
  · cases List.mem_singleton.mp hrest

theorem nonces_of_last_transfer :
    ∃ p, (Tracer.prestate (.start lastTransfer)).run (settled worn lastTransfer lastSettlement)
        (lastEvents ++ [.settled lastSettlement]) = .ok (.prestate p) ∧
      ∃ accounts, p.output (settled worn lastTransfer lastSettlement) = .ok accounts ∧
        ∀ a account, accounts.get? a = some account → ∃ n, (ofDatabase worn).nonce a = .ok n ∧
          account.nonce =
            if a = 7 ∧ n = 0xffffffffffffffff then 0xfffffffffffffffe else n := by
  have hprotocol : (Tracer.prestate (.start lastTransfer)).protocol.run
      (lastEvents ++ [.settled lastSettlement]) = .ok ⟨0, true⟩ := rfl
  obtain ⟨after, hrun, _⟩ := Tracer.run_of_protocol (t := .prestate (.start lastTransfer))
    (settled_readable readable_worn) (Nesting.sound_start _) hprotocol
  obtain ⟨p, rfl⟩ := Tracer.run_prestate hrun
  exact ⟨p, hrun, nonces_of_output readable_worn
    (fun entry hentry _ => (entered_lastEvents entry hentry).sender) hrun⟩

/-- The sender of a plain transfer, who has the largest nonce, is shown with another one. -/
theorem largest_nonce_lost :
    (ofDatabase worn).Readable ∧
      (∀ entry, .entered entry ∈ lastEvents → lastTransfer.Entered entry) ∧
      ∃ p accounts account,
        (Tracer.prestate (.start lastTransfer)).run (settled worn lastTransfer lastSettlement)
            (lastEvents ++ [.settled lastSettlement]) = .ok (.prestate p) ∧
          p.output (settled worn lastTransfer lastSettlement) = .ok accounts ∧
          accounts.get? 7 = some account ∧
          (ofDatabase worn).nonce 7 = .ok 0xffffffffffffffff ∧
          account.nonce = 0xfffffffffffffffe :=
  ⟨readable_worn, entered_lastEvents, _, _, _, rfl, rfl, rfl, rfl, rfl⟩

end Prestate
end ExecutionTrace
