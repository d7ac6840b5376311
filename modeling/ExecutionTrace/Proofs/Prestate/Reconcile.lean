import ExecutionTrace.Proofs.Protocol
import ExecutionTrace.Proofs.World.Settled

/-! Taking the settlement back. The view adds up credits and takes one debit; the prestate corrects
a copy of the map in three steps. Each undoes the other, however the parties coincide. -/
namespace ExecutionTrace

namespace TxFacts

/-- An entry is that of the top action of the transaction. A creation has no account to call, and
its entry may leave the new address open. -/
structure Entered (f : TxFacts) (e : Entry) : Prop where
  kind : e.kind = f.kind
  sender : e.sender = f.sender
  value : e.value = f.value
  target : if e.kind.isCreate then
      f.target = none ∧ (e.target = none ∨ e.target = f.created)
    else e.target = f.target

/-- The top action in a stream, where `opened` actions are open, is that of the transaction: its
entry is, and its ending names no created address or the known one. -/
def Tops (f : TxFacts) : (opened : Nat) → List Event → Prop
  | _, [] => True
  | opened, .entered e :: rest => (e.depth = 0 → f.Entered e) ∧ f.Tops (opened + 1) rest
  | opened, .ended ending :: rest =>
    (opened = 1 → ending.created = none ∨ ending.created = f.created) ∧ f.Tops (opened - 1) rest
  | opened, _ :: rest => f.Tops opened rest

structure SameDeal (f g : TxFacts) : Prop where
  kind : g.kind = f.kind
  sender : g.sender = f.sender
  target : g.target = f.target
  created : g.created = f.created
  coinbase : g.coinbase = f.coinbase
  value : g.value = f.value
  gasPrice : g.gasPrice = f.gasPrice
  baseFee : g.baseFee = f.baseFee

private theorem SameDeal.refl (f : TxFacts) :
    f.SameDeal f := ⟨rfl, rfl, rfl, rfl, rfl, rfl, rfl, rfl⟩

private theorem SameDeal.recipient {f g : TxFacts} (h : f.SameDeal g) :
    g.recipient = f.recipient := by
  rw [TxFacts.recipient, TxFacts.recipient, h.target, h.created]

private theorem SameDeal.parties {f g : TxFacts} (h : f.SameDeal g) : g.parties = f.parties := by
  rw [TxFacts.parties, TxFacts.parties, h.sender, h.recipient, h.coinbase]

private theorem SameDeal.withTopEntry {f g : TxFacts} (h : f.SameDeal g) {e : Entry}
    (he : f.Entered e) : f.SameDeal (g.withTopEntry e) := by
  have ht := he.target
  refine ⟨he.kind, he.sender, ?_, ?_, h.coinbase, he.value, h.gasPrice, h.baseFee⟩
  · simp only [TxFacts.withTopEntry]
    split at ht
    · next hk => rw [if_pos hk, ht.1]
    · next hk => rw [if_neg hk, ht]
  · simp only [TxFacts.withTopEntry, h.created]
    split at ht
    · next hk =>
      rw [if_pos hk]
      rcases ht.2 with hn | hn
      · rw [hn]; rfl
      · rw [hn]; cases f.created <;> rfl
    · next hk => rw [if_neg hk]

end TxFacts

namespace Prestate

open TxFacts World

private theorem sameDeal_learned {f : TxFacts} {p : Prestate} {e : Event} {rest : List Event}
    (hdeal : f.SameDeal p.facts) (htop : f.Tops p.scopes.opened (e :: rest)) :
    f.SameDeal (p.learned e) := by
  cases e with
  | entered e =>
    simp only [learned]
    split
    · next hd => exact hdeal.withTopEntry (htop.1 hd)
    · exact hdeal
  | ended ending =>
    rcases ending with ⟨_, _, _ | created⟩ | _ | _
    · exact hdeal
    · simp only [learned]
      split
      · next ho =>
        have hcreated : some created = f.created := by
          rcases htop.1 ho.1 with hn | hn
          · cases hn
          · exact hn
        exact { hdeal with created := hcreated }
      · exact hdeal
    · exact hdeal
    · exact hdeal
  | settled o => exact ⟨hdeal.kind, hdeal.sender, hdeal.target, hdeal.created, hdeal.coinbase,
      hdeal.value, hdeal.gasPrice, hdeal.baseFee⟩
  | _ => exact hdeal

private theorem tops_step {f : TxFacts} {s after : Protocol} {e : Event} {rest : List Event}
    (hn : s.next e = .ok after) (htop : f.Tops s.opened (e :: rest)) :
    f.Tops after.opened rest := by
  cases e with
  | entered e =>
    simp only [Protocol.next, Protocol.enter] at hn
    split at hn
    · cases hn
    · split at hn
      · cases hn
      · cases hn; exact htop.2
  | ended ending =>
    simp only [Protocol.next, Protocol.exit] at hn
    split at hn
    · cases hn
    · cases hn; exact htop.2
  | settled o =>
    simp only [Protocol.next] at hn
    split at hn
    · cases hn; exact htop
    · cases hn
  | _ => cases hn; exact htop

/-- An accepted stream ends with the facts it started from and with accounts as the view shows
them. -/
private theorem run_captures {w : World} (hw : w.Readable) {f : TxFacts} {events : List Event}
    {p : Prestate} (hs : p.scopes.Sound) (hdeal : f.SameDeal p.facts)
    (hcap : Captures w p.captured) (htop : f.Tops p.scopes.opened events) {after : Tracer}
    (h : (Tracer.prestate p).run w events = .ok after) :
    ∃ q, after = .prestate q ∧ f.SameDeal q.facts ∧ Captures w q.captured := by
  induction events generalizing p with
  | nil => cases h; exact ⟨p, rfl, hdeal, hcap⟩
  | cons e rest ih =>
    obtain ⟨haccepted, hrest⟩ := Tracer.run_cons h
    have hnext := Tracer.next_of_accepted (t := .prestate p) hw hs haccepted
    have hstep : (Tracer.prestate p).step w e = (.prestate (p.step w e).1, (p.step w e).2) := rfl
    rw [hstep] at haccepted hrest hnext
    have hsound := Tracer.sound_step w (t := .prestate p) hs e
    have hdeal' := (takes_step haccepted).facts ▸ sameDeal_learned hdeal htop
    exact ih hsound hdeal' (captures_step hcap e)
      (tops_step hnext htop) hrest

/-! ### The corrections -/

def restored (f : TxFacts) (a : Address) (account : Account) : Account :=
  let gasUsed := Word.ofUInt64 f.gasUsed
  let received := account.balance.satSub (if f.recipient = some a then transferred f else 0)
  let paid :=
    if a = f.sender then (received.satAdd (transferred f)).satAdd (gasUsed.satMul f.gasPrice)
    else received
  { account with
    balance := paid.satSub (if f.coinbase = some a then gasUsed.satMul f.tipPerGas else 0)
    nonce := if a = f.sender then satSub64 account.nonce 1 else account.nonce }

private theorem satSub_zero (a : Word) : a.satSub 0#256 = a := by
  apply BitVec.eq_of_toNat_eq
  simp

private theorem get?_adjust_map (accounts : Accounts) (a b : Address) (change : Account → Account) :
    (accounts.adjust a change).get? b =
      (accounts.get? b).map fun account => if b = a then change account else account := by
  rw [OrdMap.get?_adjust]
  by_cases hb : b = a
  · subst hb
    simp
  · simp [hb]

private def adjustParty (accounts : Accounts) (party : Option Address)
    (change : Account → Account) : Accounts :=
  match party with
  | some a => accounts.adjust a change
  | none => accounts

private theorem get?_adjustParty (accounts : Accounts) (party : Option Address) (b : Address)
    (change : Account → Account) :
    (adjustParty accounts party change).get? b =
      (accounts.get? b).map fun account => if party = some b then change account else account := by
  cases party with
  | none => simp [adjustParty]
  | some a =>
    rw [adjustParty, get?_adjust_map]
    simp only [Option.some.injEq, eq_comm]

private def eraseCreated (f : TxFacts) (accounts : Accounts) : Accounts :=
  match f.isCreation, f.created with
  | true, some created => accounts.erase created
  | _, _ => accounts

private theorem get?_eraseCreated (f : TxFacts) (accounts : Accounts) (a : Address) :
    (eraseCreated f accounts).get? a =
      if f.isCreation = true ∧ f.created = some a then none else accounts.get? a := by
  unfold eraseCreated
  cases f.isCreation <;> cases f.created <;> simp [OrdMap.get?_erase, eq_comm]

private theorem reconcile_eq (f : TxFacts) (accounts : Accounts) :
    reconcile f accounts =
      eraseCreated f (adjustParty ((adjustParty accounts f.recipient
        fun account => { account with balance := account.balance.satSub (transferred f) }).adjust
        f.sender fun account =>
          { account with
            balance := (account.balance.satAdd (transferred f)).satAdd
              ((Word.ofUInt64 f.gasUsed).satMul f.gasPrice)
            nonce := satSub64 account.nonce 1 }) f.coinbase
        fun account =>
          { account with
            balance := account.balance.satSub
              ((Word.ofUInt64 f.gasUsed).satMul f.tipPerGas) }) := rfl

/-- The corrections touch each account by itself, and drop the created one. -/
theorem get?_reconcile (f : TxFacts) (accounts : Accounts) (a : Address) :
    (reconcile f accounts).get? a =
      if f.isCreation = true ∧ f.created = some a then none
      else (accounts.get? a).map (restored f a) := by
  rw [reconcile_eq, get?_eraseCreated, get?_adjustParty, get?_adjust_map, get?_adjustParty]
  simp only [Option.map_map]
  congr 2
  funext account
  simp only [Function.comp, restored]
  by_cases hs : a = f.sender
  · subst hs
    by_cases hr : f.recipient = some f.sender <;> by_cases hc : f.coinbase = some f.sender <;>
      simp [hr, hc, satSub_zero]
  · by_cases hr : f.recipient = some a <;> by_cases hc : f.coinbase = some a <;>
      simp [hr, hs, hc, satSub_zero]

/-! ### Undoing the settlement -/

section Undo

variable {db : Database} {f g : TxFacts} {o : Settlement}

/-- The parties of `f` with the outcome `o`, as a prestate knows them at its end. -/
structure SettledDeal (f : TxFacts) (o : Settlement) (g : TxFacts) : Prop extends
    f.SameDeal g where
  settled : g.settled = true
  success : g.success = o.success
  gasUsed : g.gasUsed = o.gasUsed

private theorem transferred_eq (h : SettledDeal f o g) : transferred g = World.transferred f o := by
  simp only [transferred, TxFacts.failed, World.transferred, h.settled, h.success, h.value,
    Bool.true_and]
  cases o.success <;> rfl

/-- Taking back from a settled balance, in three steps, what was added to it and taken from it
gives the balance before. -/
theorem restored_balance (hc : Covered db f o) (hg : SettledDeal f o g) {a : Address}
    {before : Word} (hb : (ofDatabase db).balance a = .ok before) {account : Account}
    (ha : (settled db f o).balance a = .ok account.balance) :
    (restored g a account).balance = before := by
  have hafter := toNat_settled_balance hc hb ha
  have hroom := hc.room a before hb
  have hcost := hc.cost
  have hfunds : a = f.sender → moved f o + gasCost f o ≤ before.toNat := fun hs =>
    hc.funds before (hs ▸ hb)
  have hgas : ((Word.ofUInt64 g.gasUsed).satMul g.gasPrice).toNat = gasCost f o := by
    rw [hg.gasUsed, hg.gasPrice]
    exact toNat_gasPayment (Nat.le_trans (Nat.le_add_left _ _) hcost)
  have htip : ((Word.ofUInt64 g.gasUsed).satMul g.tipPerGas).toNat = gasTip f o := by
    rw [hg.gasUsed, TxFacts.tipPerGas, hg.gasPrice, hg.baseFee]
    exact toNat_tip (Nat.le_trans (Nat.le_add_left _ _) hcost)
  have hvalue : (transferred g).toNat = moved f o := by
    rw [transferred_eq hg, toNat_transferred]
  have hreceived : (if f.recipient = some a then transferred g else 0).toNat =
      if f.recipient = some a then moved f o else 0 := by
    split
    · exact hvalue
    · rfl
  have hearned : (if f.coinbase = some a then (Word.ofUInt64 g.gasUsed).satMul g.tipPerGas
      else 0).toNat = if f.coinbase = some a then gasTip f o else 0 := by
    split
    · exact htip
    · rfl
  apply BitVec.eq_of_toNat_eq
  simp only [gained, spent] at hafter hroom
  simp only [restored, hg.recipient, hg.sender, hg.coinbase, Word.toNat_satSub, hearned]
  -- From here the shares of recipient and coinbase are any two numbers.
  generalize (if f.recipient = some a then moved f o else 0) = received at *
  generalize (if f.coinbase = some a then gasTip f o else 0) = earned at *
  by_cases hs : a = f.sender
  · have hle := hfunds hs
    simp only [if_pos hs, Word.toNat_satSub, Word.toNat_satAdd, hreceived, hvalue, hgas] at hafter ⊢
    omega
  · simp only [if_neg hs, Word.toNat_satSub, hreceived] at hafter ⊢
    omega

private theorem captured_settled {accounts : Accounts} (h : Captures (settled db f o) accounts)
    {a : Address} {account : Account} (ha : accounts.get? a = some account) :
    (settled db f o).balance a = .ok account.balance ∧
      (settled db f o).code a = .ok account.code := by
  obtain ⟨_, hb, _, hc, _⟩ | ⟨ho, hempty⟩ := Account.read_cases (h a account ha)
  · exact ⟨hb, hc⟩
  · have hfields := Account.mk.inj hempty
    rw [hfields.1, hfields.2.2.1]
    exact settled_of_not_occupied ho

end Undo

private theorem run_settlement {w : World} {o : Settlement} {q p : Prestate}
    (h : (Tracer.prestate q).run w [.settled o] = .ok (.prestate p)) :
    p = { q with facts := q.facts.withSettlement o } := by
  simp only [Tracer.run, Tracer.step, step] at h
  by_cases ho : q.scopes.opened = 0
  · simp only [ho, ne_eq, not_true_eq_false, if_false] at h
    cases h
    rfl
  · simp only [ho, ne_eq, not_false_eq_true, if_true] at h
    cases h

/-- The prestate of a settled transaction lists the accounts that were captured and the parties,
without a contract that the transaction created, and shows each with the balance and the code that
the database holds, whatever the events between touch and however sender, recipient and coinbase
coincide. -/
theorem output_eq_database {db : Database} (hdb : (ofDatabase db).Readable) {f : TxFacts}
    {o : Settlement} (hc : Covered db f o) {events : List Event} (htop : f.Tops 0 events)
    {p : Prestate}
    (hrun : (Tracer.prestate (.start f)).run (settled db f o) (events ++ [.settled o]) =
      .ok (.prestate p)) :
    ∃ accounts, p.output (settled db f o) = .ok accounts ∧
      (∀ a, accounts.contains a = true ↔
        (p.captured.contains a = true ∨ a ∈ f.parties) ∧
          ¬(f.isCreation = true ∧ f.created = some a)) ∧
      ∀ a account, accounts.get? a = some account →
        (ofDatabase db).balance a = .ok account.balance ∧
        (ofDatabase db).code a = .ok account.code := by
  have hw : (settled db f o).Readable := settled_readable hdb
  rw [Tracer.run_append] at hrun
  cases hbefore : (Tracer.prestate (.start f)).run (settled db f o) events with
  | error err => rw [hbefore] at hrun; cases hrun
  | ok t =>
    rw [hbefore] at hrun
    obtain ⟨q, rfl, hdeal, hcap⟩ := run_captures hw (p := .start f) (Nesting.sound_start _)
      (SameDeal.refl f) (fun _ _ h => by cases h) htop hbefore
    obtain rfl := run_settlement hrun
    have hg : SettledDeal f o (q.facts.withSettlement o) :=
      { kind := hdeal.kind, sender := hdeal.sender, target := hdeal.target,
        created := hdeal.created, coinbase := hdeal.coinbase, value := hdeal.value,
        gasPrice := hdeal.gasPrice, baseFee := hdeal.baseFee, settled := rfl, success := rfl,
        gasUsed := rfl }
    obtain ⟨accounts, hlook⟩ := lookAll_of_readable hw q.captured f.parties
    have haccounts : Captures (settled db f o) accounts := by
      have := captures_lookAll hcap f.parties
      rwa [hlook] at this
    have hcreation : (q.facts.withSettlement o).isCreation = f.isCreation := by
      rw [TxFacts.isCreation, hg.kind, TxFacts.isCreation]
    refine ⟨reconcile (q.facts.withSettlement o) accounts, ?_, fun a => ?_, ?_⟩
    · rw [output, hg.parties, hlook]
    · rw [OrdMap.contains, get?_reconcile, hcreation, hg.created, ← contains_lookAll hw, hlook]
      split
      · next hgone => simp [hgone]
      · next hstays => simp [hstays, OrdMap.contains]
    · intro a account ha
      rw [get?_reconcile] at ha
      split at ha
      · cases ha
      · obtain ⟨seen, hseen, rfl⟩ := Option.map_eq_some_iff.mp ha
        obtain ⟨hbalance, hcode⟩ := captured_settled haccounts hseen
        obtain ⟨before, hbefore⟩ := hdb.balance a
        refine ⟨?_, hcode⟩
        rw [restored_balance hc hg hbefore hbalance]
        exact hbefore

private def selfEvents : List Event :=
  [.entered
      { depth := 0, kind := .call, sender := 7, target := some 7, value := 500
        gas := 30000, input := [], salt := none },
    .storage 7 1 5,
    .entered
      { depth := 1, kind := .staticCall, sender := 7, target := some 9, value := 0
        gas := 100, input := [], salt := none },
    .ended (.failed .outOfGas none),
    .ended (.returned 9000 [] none)]

theorem output_eq_database_of_self_transfer :
    ∃ p, (Tracer.prestate (.start (ownPayment 7))).run (settled uniform (ownPayment 7) paid)
        (selfEvents ++ [.settled paid]) = .ok (.prestate p) ∧
      ∃ accounts, p.output (settled uniform (ownPayment 7) paid) = .ok accounts ∧
        accounts.contains 7 = true ∧
        ∀ a account, accounts.get? a = some account →
          (ofDatabase uniform).balance a = .ok account.balance ∧
          (ofDatabase uniform).code a = .ok account.code := by
  have hdb : (ofDatabase uniform).Readable :=
    ⟨fun _ => ⟨true, rfl⟩, fun _ => ⟨100000, rfl⟩, fun _ => ⟨4, rfl⟩, fun _ => ⟨[1], rfl⟩⟩
  have htops : (ownPayment 7).Tops 0 selfEvents :=
    ⟨fun _ => ⟨rfl, rfl, rfl, rfl⟩, fun h => absurd h (by decide), fun h => absurd h (by decide),
      fun _ => .inl rfl, trivial⟩
  have haccepted : Protocol.run {} (selfEvents ++ [.settled paid]) = .ok ⟨0, true⟩ := rfl
  obtain ⟨after, hrun, _⟩ := Tracer.run_of_protocol (t := .prestate (.start (ownPayment 7)))
    (settled_readable hdb) (Nesting.sound_start _) haccepted
  obtain ⟨p, rfl⟩ := Tracer.run_prestate hrun
  obtain ⟨accounts, houtput, hkeys, hshown⟩ :=
    output_eq_database hdb (covered_ownPayment 7) htops hrun
  exact ⟨p, hrun, accounts, houtput, (hkeys 7).mpr ⟨.inr (by decide), by decide⟩, hshown⟩

end Prestate
end ExecutionTrace
