import ExecutionTrace.World.Settled
import ExecutionTrace.Proofs.Prestate.Capture

/-! The settled view in natural numbers. Where the sender can pay and no balance leaves the range
of words, no operation stops at an end of that range, whichever accounts coincide. -/
namespace ExecutionTrace

theorem satAdd64_zero (n : UInt64) : satAdd64 n 0 = n := by
  have hrange := n.toNat_lt
  have hzero : (0 : UInt64).toNat = 0 := rfl
  apply UInt64.toNat_inj.mp
  rw [toNat_satAdd64, hzero]
  omega

namespace World

def moved (f : TxFacts) (o : Settlement) : Nat := if o.success then f.value.toNat else 0

def gasCost (f : TxFacts) (o : Settlement) : Nat := o.gasUsed.toNat * f.gasPrice.toNat

def gasTip (f : TxFacts) (o : Settlement) : Nat :=
  o.gasUsed.toNat * (f.gasPrice.toNat - f.baseFee.toNat)

/-- What the settlement gives to an account, as recipient and as coinbase. -/
def gained (f : TxFacts) (o : Settlement) (a : Address) : Nat :=
  (if f.recipient = some a then moved f o else 0) + (if f.coinbase = some a then gasTip f o else 0)

/-- What the settlement takes from an account, as sender. -/
def spent (f : TxFacts) (o : Settlement) (a : Address) : Nat :=
  if a = f.sender then moved f o + gasCost f o else 0

/-- The sender can pay, and no balance grows beyond the largest word. -/
structure Covered (db : Database) (f : TxFacts) (o : Settlement) : Prop where
  funds : ∀ b, (ofDatabase db).balance f.sender = .ok b → moved f o + gasCost f o ≤ b.toNat
  cost : moved f o + gasCost f o ≤ Word.max
  room : ∀ a b, (ofDatabase db).balance a = .ok b → b.toNat + gained f o a ≤ Word.max

variable {db : Database} {f : TxFacts} {o : Settlement}

@[simp] theorem toNat_transferred : (transferred f o).toNat = moved f o := by
  unfold transferred moved
  split <;> rfl

private theorem gasTip_le_gasCost : gasTip f o ≤ gasCost f o :=
  Nat.mul_le_mul_left _ (Nat.sub_le _ _)

theorem toNat_gasPayment (h : gasCost f o ≤ Word.max) : (gasPayment f o).toNat = gasCost f o := by
  rw [gasPayment, Word.toNat_satMul, Word.toNat_ofUInt64]
  exact Nat.min_eq_left h

theorem toNat_tip (h : gasCost f o ≤ Word.max) : (tip f o).toNat = gasTip f o := by
  rw [tip, Word.toNat_satMul, Word.toNat_ofUInt64, TxFacts.tipPerGas, Word.toNat_satSub]
  exact Nat.min_eq_left (Nat.le_trans gasTip_le_gasCost h)

theorem toNat_credit {a : Address} (hcost : gasCost f o ≤ Word.max)
    (hgained : gained f o a ≤ Word.max) : (credit f o a).toNat = gained f o a := by
  have hvalue : (if f.recipient = some a then transferred f o else 0).toNat =
      if f.recipient = some a then moved f o else 0 := by
    split
    · exact toNat_transferred
    · rfl
  have htip : (if f.coinbase = some a then tip f o else 0).toNat =
      if f.coinbase = some a then gasTip f o else 0 := by
    split
    · exact toNat_tip hcost
    · rfl
  rw [credit, Word.toNat_satAdd, hvalue, htip]
  exact Nat.min_eq_left hgained

theorem toNat_debit {a : Address} (h : moved f o + gasCost f o ≤ Word.max) :
    (debit f o a).toNat = spent f o a := by
  unfold debit spent
  split
  · rw [Word.toNat_satAdd, toNat_transferred,
      toNat_gasPayment (Nat.le_trans (Nat.le_add_left _ _) h)]
    exact Nat.min_eq_left h
  · rfl

theorem settled_balance {a : Address} {b : Word} (h : (ofDatabase db).balance a = .ok b) :
    (settled db f o).balance a = .ok ((b.satAdd (credit f o a)).satSub (debit f o a)) := by
  simp only [settled, h]
  rfl

/-- The balance of an account is the one before, with what the settlement gives and takes. -/
theorem toNat_settled_balance (hc : Covered db f o) {a : Address} {b after : Word}
    (hb : (ofDatabase db).balance a = .ok b) (ha : (settled db f o).balance a = .ok after) :
    after.toNat = b.toNat + gained f o a - spent f o a := by
  rw [settled_balance hb] at ha
  cases ha
  have hroom := hc.room a b hb
  have hcost : gasCost f o ≤ Word.max := Nat.le_trans (Nat.le_add_left _ _) hc.cost
  rw [Word.toNat_satSub, Word.toNat_satAdd,
    toNat_credit hcost (Nat.le_trans (Nat.le_add_left _ _) hroom), toNat_debit hc.cost,
    Nat.min_eq_left hroom]

theorem settled_nonce {a : Address} {n : UInt64} (h : (ofDatabase db).nonce a = .ok n) :
    (settled db f o).nonce a = .ok (satAdd64 n (if a = f.sender then 1 else 0)) := by
  simp only [settled, h]
  rfl

/-! ### Accounts that do not exist -/

theorem occupied_of_settled_false {a : Address} (h : (settled db f o).occupied a = .ok false) :
    f.recipient ≠ some a ∧ a ≠ f.sender ∧ f.coinbase ≠ some a ∧
      (ofDatabase db).occupied a = .ok false := by
  simp only [settled] at h
  split at h
  · cases h
  · next hi =>
    simp only [involves, Bool.or_eq_true, decide_eq_true_eq, not_or] at hi
    exact ⟨hi.1.2, hi.1.1, hi.2, h⟩

theorem ofDatabase_of_not_occupied {a : Address} (h : (ofDatabase db).occupied a = .ok false) :
    (ofDatabase db).balance a = .ok 0 ∧ (ofDatabase db).nonce a = .ok 0 ∧
      (ofDatabase db).code a = .ok [] := by
  simp only [ofDatabase] at h ⊢
  cases ha : (db.account a).mapError (ReadFault.account a) with
  | error fault => rw [ha] at h; cases h
  | ok record =>
    rw [ha] at h
    cases record with
    | none => exact ⟨rfl, rfl, rfl⟩
    | some r => cases h

/-- An account that the settled view does not have reads as empty there and in the database. -/
theorem settled_of_not_occupied {a : Address} (h : (settled db f o).occupied a = .ok false) :
    (settled db f o).balance a = .ok 0 ∧ (settled db f o).code a = .ok [] := by
  obtain ⟨hr, hs, hc, ho⟩ := occupied_of_settled_false h
  obtain ⟨hb, _, hcode⟩ := ofDatabase_of_not_occupied ho
  refine ⟨?_, hcode⟩
  rw [settled_balance hb, credit, debit, if_neg hr, if_neg hs, if_neg hc]
  rfl

theorem settled_readable (h : (ofDatabase db).Readable) : (settled db f o).Readable where
  occupied a := by
    obtain ⟨b, hb⟩ := h.occupied a
    simp only [settled]
    split
    · exact ⟨true, rfl⟩
    · exact ⟨b, hb⟩
  balance a := by
    obtain ⟨b, hb⟩ := h.balance a
    exact ⟨_, settled_balance hb⟩
  nonce a := by
    obtain ⟨n, hn⟩ := h.nonce a
    simp only [settled, hn]
    exact ⟨_, rfl⟩
  code a := h.code a

/-! ### A payment of a coinbase -/

def uniform : Database where
  account _ := .ok (some { balance := 100000, nonce := 4, codeHash := 0, code := some [1] })
  code _ := .ok []
  storage _ _ := .ok 5

def ownPayment (target : Address) : TxFacts :=
  { gasPrice := 3, sender := 7, target := some target, value := 500, coinbase := some 7
    baseFee := 1 }

def paid : Settlement :=
  { success := true, gasUsed := 21000, output := [], logs := [], failure := none }

theorem covered_ownPayment (target : Address) : Covered uniform (ownPayment target) paid := by
  have hmoved : moved (ownPayment target) paid = 500 := rfl
  have hcost : gasCost (ownPayment target) paid = 63000 := rfl
  have htip : gasTip (ownPayment target) paid = 42000 := rfl
  refine ⟨fun b hb => ?_, ?_, fun a b hb => ?_⟩
  · cases hb
    rw [hmoved, hcost]
    decide
  · rw [hmoved, hcost]
    decide
  · have hgained : gained (ownPayment target) paid a ≤ 500 + 42000 := by
      rw [gained, hmoved, htip]
      exact Nat.add_le_add (by split <;> decide) (by split <;> decide)
    cases hb
    exact Nat.le_trans (Nat.add_le_add_left hgained _) (by decide)

end World
end ExecutionTrace
