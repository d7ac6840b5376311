import Mathlib.Algebra.BigOperators.Group.Finset.Piecewise
import ExecutionTrace.Proofs.World.Settled

/-! The settled view against the database itself. It shows each account as its record has it but for
what the settlement says, and of all balances together only the gas that nobody earns is gone. -/
namespace ExecutionTrace

/-- The balance that a database holds of an account; without an account, and where none can be read,
there is nothing. -/
def Database.funds (db : Database) (a : Address) : Nat :=
  match db.account a with
  | .ok (some record) => record.balance.toNat
  | _ => 0

namespace World

/-- The balance that a view shows of an account; where it cannot be read, there is nothing. -/
def funds (w : World) (a : Address) : Nat :=
  match w.balance a with
  | .ok balance => balance.toNat
  | .error _ => 0

/-- What the gas costs beyond what the coinbase earns. Where there is no coinbase, nobody earns. -/
def burnt (f : TxFacts) (o : Settlement) : Nat :=
  match f.coinbase with
  | some _ => o.gasUsed.toNat * min f.gasPrice.toNat f.baseFee.toNat
  | none => gasCost f o

/-- What the settled view shows of an account with this record, if it has one. -/
structure ShowsSettled (db : Database) (f : TxFacts) (o : Settlement) (a : Address)
    (record : Option AccountRecord) : Prop where
  balance : ∃ after, (settled db f o).balance a = .ok after ∧
    after.toNat + spent f o a = db.funds a + gained f o a
  /-- The transaction of the sender is counted, unless its number is beyond the last one. -/
  nonce_sender : a = f.sender → record.elim 0 (·.nonce) ≠ 0xffffffffffffffff →
    ∃ after, (settled db f o).nonce a = .ok after ∧
      after.toNat = (record.elim 0 (·.nonce)).toNat + 1
  nonce_other : a ≠ f.sender → (settled db f o).nonce a = .ok (record.elim 0 (·.nonce))
  code : ∃ code, (settled db f o).code a = .ok code ∧ record.elim (.ok []) (codeOf db a) = .ok code
  occupied_party : a = f.sender ∨ f.recipient = some a ∨ f.coinbase = some a →
    (settled db f o).occupied a = .ok true
  occupied_other : a ≠ f.sender → f.recipient ≠ some a → f.coinbase ≠ some a →
    (settled db f o).occupied a = .ok record.isSome

/-- The settled view is the database with the settlement applied and nothing else. -/
structure AppliesSettlement (db : Database) (f : TxFacts) (o : Settlement) : Prop where
  account : ∀ a, ∃ record, db.account a = .ok record ∧ ShowsSettled db f o a record
  storage : ∀ a key, ∃ value, db.storage a key = .ok value ∧
    (settled db f o).storage a key = .ok value
  /-- Accounts that include all parties lose what is burnt, and no more. -/
  total : ∀ payee, f.recipient = some payee → ∀ accounts : Finset Address,
    f.sender ∈ accounts → payee ∈ accounts → (∀ miner, f.coinbase = some miner → miner ∈ accounts) →
      ∑ a ∈ accounts, (settled db f o).funds a + burnt f o = ∑ a ∈ accounts, db.funds a

variable {db : Database} {f : TxFacts} {o : Settlement}

/-! ### One account -/

section Reads

variable {a : Address} {record : Option AccountRecord} (h : db.account a = .ok record)
include h

private theorem ofDatabase_balance :
    (ofDatabase db).balance a = .ok (record.elim 0 (·.balance)) := by
  simp only [ofDatabase, h]
  cases record <;> rfl

private theorem ofDatabase_nonce : (ofDatabase db).nonce a = .ok (record.elim 0 (·.nonce)) := by
  simp only [ofDatabase, h]
  cases record <;> rfl

private theorem ofDatabase_code : (ofDatabase db).code a = record.elim (.ok []) (codeOf db a) := by
  simp only [ofDatabase, h]
  cases record <;> rfl

private theorem ofDatabase_occupied : (ofDatabase db).occupied a = .ok record.isSome := by
  simp only [ofDatabase, h]
  rfl

private theorem funds_of_account : db.funds a = (record.elim 0 (·.balance)).toNat := by
  rw [Database.funds, h]
  cases record <;> rfl

end Reads

private theorem codeOf_of_answers (hdb : db.Answers) (a : Address) (r : AccountRecord) :
    ∃ code, codeOf db a r = .ok code := by
  unfold codeOf
  split
  · exact ⟨_, rfl⟩
  · split
    · exact ⟨_, rfl⟩
    · obtain ⟨code, hcode⟩ := hdb.code r.codeHash
      exact ⟨code, by rw [hcode]; rfl⟩

private theorem showsSettled_of_account (hdb : db.Answers) (hc : Covered db f o) {a : Address}
    {record : Option AccountRecord} (h : db.account a = .ok record) :
    ShowsSettled db f o a record where
  balance := by
    have hbefore := ofDatabase_balance h
    have hafter := settled_balance (f := f) (o := o) hbefore
    have hvalue := toNat_settled_balance hc hbefore hafter
    have hspent : spent f o a ≤ (record.elim 0 (·.balance)).toNat := by
      unfold spent
      split
      · next hsender => exact hc.funds _ (hsender ▸ hbefore)
      · exact Nat.zero_le _
    refine ⟨_, hafter, ?_⟩
    rw [hvalue, funds_of_account h]
    omega
  nonce_sender := by
    intro hsender hbelow
    have hafter := settled_nonce (f := f) (o := o) (ofDatabase_nonce h)
    refine ⟨_, hafter, ?_⟩
    have hone : (1 : UInt64).toNat = 1 := rfl
    have hrange := (record.elim 0 (·.nonce)).toNat_lt
    have hlast : (record.elim 0 (·.nonce)).toNat ≠ 0xffffffffffffffff := fun heq =>
      hbelow (UInt64.toNat_inj.mp heq)
    rw [if_pos hsender, toNat_satAdd64, hone]
    omega
  nonce_other := by
    intro hother
    rw [settled_nonce (ofDatabase_nonce h), if_neg hother, satAdd64_zero]
  code := by
    have hcode : ∃ code, record.elim (.ok []) (codeOf db a) = .ok code := by
      cases record with
      | none => exact ⟨[], rfl⟩
      | some r => exact codeOf_of_answers hdb a r
    obtain ⟨code, hcode⟩ := hcode
    exact ⟨code, (ofDatabase_code h).trans hcode, hcode⟩
  occupied_party := by
    intro hparty
    have hinvolved : involves f a = true := by
      simpa only [involves, Bool.or_eq_true, decide_eq_true_eq, or_assoc] using hparty
    exact if_pos hinvolved
  occupied_other := by
    intro hsender hrecipient hcoinbase
    have hstranger : ¬involves f a = true := by
      simp [involves, hsender, hrecipient, hcoinbase]
    exact (if_neg hstranger).trans (ofDatabase_occupied h)

/-! ### All accounts together -/

private theorem gasTip_add_burnt {miner : Address} (h : f.coinbase = some miner) :
    gasTip f o + burnt f o = gasCost f o := by
  have hprice : f.gasPrice.toNat - f.baseFee.toNat + min f.gasPrice.toNat f.baseFee.toNat =
      f.gasPrice.toNat := by omega
  rw [burnt, h, gasTip, gasCost, ← Nat.mul_add, hprice]

private theorem sum_spent {accounts : Finset Address} (h : f.sender ∈ accounts) :
    ∑ a ∈ accounts, spent f o a = moved f o + gasCost f o := by
  unfold spent
  rw [Finset.sum_ite_eq', if_pos h]

/-- What all accounts gain and what is burnt is what the sender spends. -/
private theorem sum_gained_add_burnt {payee : Address} (hpayee : f.recipient = some payee)
    {accounts : Finset Address} (hmem : payee ∈ accounts)
    (hminer : ∀ miner, f.coinbase = some miner → miner ∈ accounts) :
    ∑ a ∈ accounts, gained f o a + burnt f o = moved f o + gasCost f o := by
  have hvalue : ∑ a ∈ accounts, (if f.recipient = some a then moved f o else 0) = moved f o := by
    simp only [hpayee, Option.some.injEq]
    rw [Finset.sum_ite_eq, if_pos hmem]
  unfold gained
  rw [Finset.sum_add_distrib, hvalue, Nat.add_assoc]
  congr 1
  cases hcoinbase : f.coinbase with
  | none =>
    simp only [reduceCtorEq, if_false, Finset.sum_const_zero, Nat.zero_add, burnt, hcoinbase]
  | some miner =>
    simp only [Option.some.injEq]
    rw [Finset.sum_ite_eq, if_pos (hminer miner hcoinbase)]
    exact gasTip_add_burnt hcoinbase

private theorem ShowsSettled.funds {a : Address} {record : Option AccountRecord}
    (h : ShowsSettled db f o a record) :
    (settled db f o).funds a + spent f o a = db.funds a + gained f o a := by
  obtain ⟨after, hafter, hvalue⟩ := h.balance
  rw [World.funds, hafter]
  exact hvalue

/-- Where the sender can pay and no balance grows beyond the largest word, the settled view of a
database that answers is that database with the settlement applied and nothing else, whichever of
sender, recipient and coinbase coincide. -/
theorem settled_of_covered (hdb : db.Answers) (hc : Covered db f o) :
    AppliesSettlement db f o where
  account a := by
    obtain ⟨record, hrecord⟩ := hdb.account a
    exact ⟨record, hrecord, showsSettled_of_account hdb hc hrecord⟩
  storage a key := by
    obtain ⟨value, hvalue⟩ := hdb.storage a key
    refine ⟨value, hvalue, ?_⟩
    simp only [settled, ofDatabase, hvalue]
    rfl
  total payee hpayee accounts hsender hmem hminer := by
    have heach : ∀ a ∈ accounts,
        (settled db f o).funds a + spent f o a = db.funds a + gained f o a := by
      intro a _
      obtain ⟨record, hrecord⟩ := hdb.account a
      exact (showsSettled_of_account hdb hc hrecord).funds
    have hsum := Finset.sum_congr rfl heach
    rw [Finset.sum_add_distrib, Finset.sum_add_distrib, sum_spent hsender] at hsum
    have hspent := sum_gained_add_burnt (o := o) hpayee hmem hminer
    omega

theorem settled_of_own_block :
    uniform.Answers ∧ Covered uniform (ownPayment 8) paid ∧
      AppliesSettlement uniform (ownPayment 8) paid ∧
      ∑ a ∈ {7, 8}, (settled uniform (ownPayment 8) paid).funds a = 179000 := by
  have hdb : uniform.Answers := ⟨fun _ => ⟨_, rfl⟩, fun _ => ⟨_, rfl⟩, fun _ _ => ⟨_, rfl⟩⟩
  have happlies := settled_of_covered hdb (covered_ownPayment 8)
  have htotal := happlies.total 8 rfl {7, 8} (by decide) (by decide) fun miner hminer => by
    cases hminer
    decide
  have hbefore : ∑ a ∈ {7, 8}, uniform.funds a = 200000 := rfl
  have hburnt : burnt (ownPayment 8) paid = 21000 := rfl
  rw [hbefore, hburnt] at htotal
  exact ⟨hdb, covered_ownPayment 8, happlies, Nat.add_right_cancel htotal⟩

end World
end ExecutionTrace
