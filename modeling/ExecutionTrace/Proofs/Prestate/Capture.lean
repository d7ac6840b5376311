import ExecutionTrace.Prestate
import ExecutionTrace.Proofs.Nesting
import ExecutionTrace.Proofs.Snapshots

/-! What an event makes a prestate read, and what it leaves as it was. Accounts come into the map
whole and without slots, and from then on only their slots grow. -/
namespace ExecutionTrace

namespace Account

private theorem read_of_readable {w : World} (hw : w.Readable) (a : Address) :
    ∃ account, read w a = .ok account := by
  obtain ⟨b, hb⟩ := hw.occupied a
  obtain ⟨balance, hbalance⟩ := hw.balance a
  obtain ⟨nonce, hnonce⟩ := hw.nonce a
  obtain ⟨code, hcode⟩ := hw.code a
  cases b with
  | false => exact ⟨{}, by rw [read, hb]; rfl⟩
  | true => exact ⟨{ balance, nonce, code }, by rw [read, hb, hbalance, hnonce, hcode]; rfl⟩

/-- An account is there with what the view says of it, or there is none and it is empty. -/
theorem read_cases {w : World} {a : Address} {account : Account} (h : read w a = .ok account) :
    (w.occupied a = .ok true ∧ w.balance a = .ok account.balance ∧ w.nonce a = .ok account.nonce ∧
        w.code a = .ok account.code ∧ account.storage = ∅) ∨
      (w.occupied a = .ok false ∧ account = {}) := by
  unfold read at h
  cases ho : w.occupied a with
  | error fault => rw [ho] at h; cases h
  | ok b =>
    rw [ho] at h
    cases b with
    | false => cases h; exact .inr ⟨rfl, rfl⟩
    | true =>
      cases hb : w.balance a with
      | error fault => rw [hb] at h; cases h
      | ok balance =>
        cases hn : w.nonce a with
        | error fault => rw [hb, hn] at h; cases h
        | ok nonce =>
          cases hc : w.code a with
          | error fault => rw [hb, hn, hc] at h; cases h
          | ok code =>
            rw [hb, hn, hc] at h
            cases h
            exact .inl ⟨rfl, rfl, rfl, rfl, rfl⟩

private theorem storage_of_read {w : World} {a : Address} {account : Account}
    (h : read w a = .ok account) : account.storage = ∅ := by
  obtain ⟨_, _, _, _, hs⟩ | ⟨_, rfl⟩ := read_cases h
  · exact hs
  · rfl

end Account

namespace Prestate

/-! ### Looking at accounts -/

theorem look_of_readable {w : World} (hw : w.Readable) (accounts : Accounts) (a : Address) :
    ∃ after, look w accounts a = .ok after := by
  obtain ⟨account, ha⟩ := Account.read_of_readable hw a
  unfold look
  split
  · exact ⟨_, rfl⟩
  · exact ⟨accounts.insert a account, by rw [ha]⟩

theorem lookAll_of_readable {w : World} (hw : w.Readable) (accounts : Accounts)
    (as : List Address) : ∃ after, lookAll w accounts as = (after, .ok ()) := by
  induction as generalizing accounts with
  | nil => exact ⟨accounts, rfl⟩
  | cons a rest ih =>
    obtain ⟨after, ha⟩ := look_of_readable hw accounts a
    rw [lookAll, ha]
    exact ih after

/-- A look changes the answer for its own address at most, and only where there was none. -/
theorem get?_look {w : World} {accounts after : Accounts} {a : Address}
    (h : look w accounts a = .ok after) (b : Address) :
    after.get? b = accounts.get? b ∨
      (accounts.get? b = none ∧ ∃ account, Account.read w b = .ok account ∧
        after.get? b = some account) := by
  unfold look at h
  split at h
  · cases h; exact .inl rfl
  · next hn =>
    have hnone : accounts.get? a = none := by simpa [OrdMap.contains] using hn
    cases ha : Account.read w a with
    | error fault => rw [ha] at h; cases h
    | ok account =>
      rw [ha] at h
      cases h
      by_cases hb : b = a
      · subst hb
        exact .inr ⟨hnone, account, ha, OrdMap.get?_insert_self _ _ _⟩
      · exact .inl (by rw [OrdMap.get?_insert, if_neg hb])

theorem get?_lookAll (w : World) (accounts : Accounts) (as : List Address) (b : Address) :
    (lookAll w accounts as).1.get? b = accounts.get? b ∨
      (accounts.get? b = none ∧ ∃ account, Account.read w b = .ok account ∧
        (lookAll w accounts as).1.get? b = some account) := by
  induction as generalizing accounts with
  | nil => exact .inl rfl
  | cons a rest ih =>
    rw [lookAll]
    cases ha : look w accounts a with
    | error fault => exact .inl rfl
    | ok after =>
      obtain hfirst | ⟨hnone, account, hread, hsome⟩ := get?_look ha b
      · rw [← hfirst]
        exact ih after
      · obtain hrest | ⟨hnone', _⟩ := ih after
        · exact .inr ⟨hnone, account, hread, hrest.trans hsome⟩
        · rw [hsome] at hnone'; cases hnone'

private theorem contains_look_iff {w : World} {accounts after : Accounts} {a : Address}
    (h : look w accounts a = .ok after) (b : Address) :
    after.contains b = true ↔ accounts.contains b = true ∨ b = a := by
  unfold look at h
  split at h
  · next hthere =>
    cases h
    exact ⟨.inl, fun hb => hb.elim id fun hself => hself ▸ hthere⟩
  · split at h
    · cases h
      by_cases hb : b = a <;> simp [OrdMap.contains, OrdMap.get?_insert, hb]
    · cases h

theorem contains_lookAll {w : World} (hw : w.Readable) (accounts : Accounts) (as : List Address)
    (a : Address) :
    (lookAll w accounts as).1.contains a = true ↔ accounts.contains a = true ∨ a ∈ as := by
  induction as generalizing accounts with
  | nil => simp [lookAll]
  | cons first rest ih =>
    obtain ⟨after, hlook⟩ := look_of_readable hw accounts first
    rw [lookAll, hlook]
    dsimp only
    rw [ih, contains_look_iff hlook, or_assoc, List.mem_cons]

/-! ### One step

`touches` lists the accounts that an event makes a prestate look at, in order, and `noteSlot` is
all that happens to the accounts besides. -/

def touches (p : Prestate) : Event → List Address
  | .entered e => entryTouches (if e.depth = 0 then p.facts.withTopEntry e else p.facts) e
  | .ended ending => if p.scopes.opened = 0 then [] else ending.created.toList
  | .stack words =>
    match p.op.opcode.map (p.operandTouch · words) with
    | some (.ok (some a)) => [a]
    | _ => []
  | .storage a _ _ => [a]
  | _ => []

/-- The accounts after the storage access of an event, if it is one. -/
def noteSlot (accounts : Accounts) : Event → Accounts
  | .storage a key value =>
    accounts.adjust a fun account =>
      { account with storage := account.storage.insertNew key value }
  | _ => accounts

private theorem lookAll_singleton (w : World) (accounts : Accounts) (a : Address) :
    lookAll w accounts [a] =
      match look w accounts a with
      | .ok after => (after, .ok ())
      | .error fault => (accounts, .error fault) := by
  rw [lookAll]
  cases look w accounts a <;> rfl

private theorem adjust_of_look_error {w : World} {accounts : Accounts} {a : Address}
    {fault : ReadFault} (h : look w accounts a = .error fault) (f : Account → Account) :
    accounts.adjust a f = accounts := by
  unfold look at h
  split at h
  · cases h
  · next hn =>
    have hnone : accounts.get? a = none := by simpa [OrdMap.contains] using hn
    rw [OrdMap.adjust, hnone]

/-- A step looks at the accounts its event touches, notes a slot, and does nothing else to the
accounts, whether or not it is accepted. -/
theorem captured_step (w : World) (p : Prestate) (e : Event) :
    (p.step w e).1.captured = noteSlot (lookAll w p.captured (p.touches e)).1 e := by
  cases e with
  | entered e =>
    simp only [step, touches, noteSlot]
    split
    · next h => rw [h]
    · next h =>
      rw [h]
      split <;> rfl
  | ended ending =>
    simp only [step, touches, noteSlot]
    by_cases ho : p.scopes.opened = 0
    · rw [Nesting.close_of_opened_zero ho, if_pos ho]
      rfl
    · obtain ⟨scopes, hs⟩ := Nesting.close_of_opened_pos ho id
      rw [hs, if_neg ho]
      dsimp only
      split
      · next h => rw [h]
      · next h => rw [h]
  | stack words =>
    simp only [step, stackStep, touches, noteSlot]
    cases hop : p.op.opcode with
    | none => rfl
    | some opcode =>
      simp only [Option.map_some]
      rcases ht : p.operandTouch opcode words with fault | touched
      · rfl
      · cases touched with
        | none => rfl
        | some a =>
          simp only [lookAll_singleton]
          cases look w p.captured a <;> rfl
  | storage a key value =>
    simp only [step, touches, noteSlot, lookAll_singleton]
    cases hl : look w p.captured a with
    | error fault => exact (adjust_of_look_error hl _).symm
    | ok after => rfl
  | settled o =>
    simp only [step, touches, noteSlot]
    split <;> rfl
  | _ => rfl

def learned (p : Prestate) : Event → TxFacts
  | .entered e => if e.depth = 0 then p.facts.withTopEntry e else p.facts
  | .ended (.returned _ _ (some created)) =>
    if p.scopes.opened = 1 ∧ p.facts.isCreation then { p.facts with created := some created }
    else p.facts
  | .settled o => p.facts.withSettlement o
  | _ => p.facts

/-- The open actions that an accepted event leaves, each with the account on whose storage it
runs. -/
def Nests (p : Prestate) (after : Nesting (Option Address)) : Event → Prop
  | .entered e => ∃ kept, p.scopes.enter e.depth
      (if e.kind.inCallerContext then some e.sender else targetOf (p.learned (.entered e)) e) =
        (after, .ok kept)
  | .ended _ => p.scopes.close id = (after, .ok ())
  | _ => after = p.scopes

/-- All that an event does to a prestate, accounts apart. -/
structure Takes (p : Prestate) (e : Event) (after : Prestate) : Prop where
  facts : after.facts = p.learned e
  scopes : p.Nests after.scopes e
  op : after.op = p.op.next e

theorem takes_step {w : World} {p : Prestate} {e : Event} (h : (p.step w e).2 = .ok ()) :
    p.Takes e (p.step w e).1 := by
  cases e with
  | entered e =>
    simp only [step] at h ⊢
    split at h
    · cases h
    · split at h
      · next kept henter => exact ⟨rfl, ⟨kept, henter⟩, rfl⟩
      · cases h
  | ended ending =>
    simp only [step] at h ⊢
    split at h
    · cases h
    · next scopes hclose =>
      have hlast : scopes.opened = 0 ↔ p.scopes.opened = 1 := by
        rw [Nesting.opened_of_close hclose, Nat.add_eq_right]
      split at h
      · cases h
      · refine ⟨?_, hclose, rfl⟩
        rcases ending with ⟨_, _, _ | created⟩ | _ | _
        · rfl
        · simp only [hlast, learned]
        · rfl
        · rfl
  | stack words =>
    simp only [step, stackStep] at h ⊢
    cases hop : p.op.opcode with
    | none =>
      have hkept : p.op.next (.stack words) = p.op := by rw [PendingOp.next, hop]; rfl
      exact ⟨rfl, rfl, hkept.symm⟩
    | some opcode =>
      have hcleared : p.op.next (.stack words) = p.op.clear := by rw [PendingOp.next, hop]; rfl
      simp only [hop] at h
      dsimp only
      split at h
      · split at h
        · exact ⟨rfl, rfl, hcleared.symm⟩
        · cases h
      · exact ⟨rfl, rfl, hcleared.symm⟩
  | storage a key value =>
    simp only [step] at h ⊢
    split at h
    · cases h
    · exact ⟨rfl, rfl, rfl⟩
  | settled o =>
    simp only [step] at h ⊢
    split at h
    · cases h
    · next hclosed =>
      rw [if_neg hclosed]
      exact ⟨rfl, rfl, rfl⟩
  | _ => exact ⟨rfl, rfl, rfl⟩

/-! ### Accounts as they were read -/

/-- Each account is the one the view shows, slots apart. -/
def Captures (w : World) (accounts : Accounts) : Prop :=
  ∀ a account, accounts.get? a = some account →
    Account.read w a = .ok { account with storage := ∅ }

theorem captures_lookAll {w : World} {accounts : Accounts} (h : Captures w accounts)
    (as : List Address) : Captures w (lookAll w accounts as).1 := by
  intro a account ha
  obtain hsame | ⟨_, fresh, hread, hsome⟩ := get?_lookAll w accounts as a
  · exact h a account (hsame ▸ ha)
  · obtain rfl : fresh = account := by rw [hsome] at ha; exact Option.some.inj ha
    rw [hread, ← Account.storage_of_read hread]

private theorem captures_noteSlot {w : World} {accounts : Accounts} (h : Captures w accounts)
    (e : Event) : Captures w (noteSlot accounts e) := by
  cases e with
  | storage a' key value =>
    intro a account ha
    rw [noteSlot, OrdMap.get?_adjust] at ha
    split at ha
    · next haa =>
      obtain ⟨old, hold, rfl⟩ := Option.map_eq_some_iff.mp ha
      rw [haa]
      exact h a' old hold
    · exact h a account ha
  | _ => exact h

theorem captures_step {w : World} {p : Prestate} (h : Captures w p.captured) (e : Event) :
    Captures w (p.step w e).1.captured := by
  rw [captured_step]
  exact captures_noteSlot (captures_lookAll h _) e

/-! ### Slots -/

def slot (p : Prestate) (a : Address) (key : Word) : Option Word :=
  (p.captured.get? a).bind (·.storage.get? key)

end Prestate

def Event.slotValue? (a : Address) (key : Word) : Event → Option Word
  | .storage a' key' value => if a' = a ∧ key' = key then some value else none
  | _ => none

namespace Prestate

private theorem slot_lookAll (w : World) (accounts : Accounts) (as : List Address) (a : Address)
    (key : Word) :
    ((lookAll w accounts as).1.get? a).bind (·.storage.get? key) =
      (accounts.get? a).bind (·.storage.get? key) := by
  obtain h | ⟨hnone, account, hread, hsome⟩ := get?_lookAll w accounts as a
  · rw [h]
  · rw [hnone, hsome]
    simp only [Option.bind_some, Option.bind_none, Account.storage_of_read hread]
    rfl

/-- The first value reported for a slot stays. A slot is new only through an accepted report. -/
theorem slot_step {w : World} {p : Prestate} {e : Event} (h : (p.step w e).2 = .ok ())
    (a : Address) (key : Word) :
    (p.step w e).1.slot a key = (p.slot a key).or (e.slotValue? a key) := by
  rw [slot, captured_step]
  cases e with
  | storage a' key' value =>
    simp only [step] at h
    cases hl : look w p.captured a' with
    | error fault => rw [hl] at h; cases h
    | ok after =>
      have hc := (contains_look_iff hl a').mpr (.inr rfl)
      obtain ⟨account, ha⟩ : ∃ account, after.get? a' = some account :=
        Option.isSome_iff_exists.mp hc
      have hsame := slot_lookAll w p.captured [a'] a key
      rw [lookAll_singleton, hl] at hsame
      simp only [noteSlot, touches, lookAll_singleton, hl, Event.slotValue?]
      rw [slot, ← hsame, OrdMap.get?_adjust]
      by_cases hself : a = a'
      · subst hself
        rw [if_pos rfl, ha]
        simp only [Option.map_some, Option.bind_some, OrdMap.get?_insertNew]
        by_cases hk : key = key'
        · subst hk
          cases account.storage.get? key <;> simp
        · simp [hk, Ne.symm hk]
      · simp [hself, Ne.symm hself]
  | _ =>
    simp only [noteSlot, Event.slotValue?, Option.or_none]
    exact slot_lookAll w p.captured _ a key

/-- An event that is not accepted adds no slot, though it may add accounts. -/
theorem slot_step_of_error {w : World} {p : Prestate} {e : Event} {err : TraceError}
    (h : (p.step w e).2 = .error err) (a : Address) (key : Word) :
    (p.step w e).1.slot a key = p.slot a key := by
  cases e with
  | storage a' key' value =>
    simp only [step] at h ⊢
    split
    · rfl
    · next hlook =>
      rw [hlook] at h
      cases h
  | _ =>
    rw [slot, captured_step]
    exact slot_lookAll w p.captured _ a key

end Prestate
end ExecutionTrace
