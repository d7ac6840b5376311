import ExecutionTrace.Proofs.Operand
import ExecutionTrace.Proofs.Prestate.Contexts
import ExecutionTrace.Proofs.Prestate.Reconcile

/-! Which accounts are part of a prestate. Each event says which accounts it touches, given the
events before it. The prestate has those, the parties of the transaction, and no others. -/
namespace ExecutionTrace

/-- An operation with this stack and memory, on the storage of `context`, names an account. -/
inductive Names (precompiled : Address → Bool) (context : Option Address) (memory : Bytes)
    (words : List Word) : UInt8 → Address → Prop
  /-- The operation asks for the balance or the code of the account, or destroys itself for it. -/
  | account {opcode : UInt8} {word : Word} (hop : opcode ∈ [0x31, 0x3b, 0x3c, 0x3f, 0xff])
      (hword : words[0]? = some word) : Names precompiled context memory words opcode word.toAddress
  /-- The account is called. -/
  | callee {opcode : UInt8} {word : Word} (hop : opcode ∈ [0xf1, 0xf2, 0xf4, 0xfa])
      (hword : words[1]? = some word) (hcontract : precompiled word.toAddress = false) :
      Names precompiled context memory words opcode word.toAddress
  /-- The account is created with a salt. -/
  | creation {creator : Address} {offset length salt : Word} {code : Bytes}
      (hcreator : context = some creator) (hoffset : words[1]? = some offset)
      (hlength : words[2]? = some length) (hsalt : words[3]? = some salt)
      (hcode : Operand.slice memory offset length = .ok code) :
      Names precompiled context memory words 0xf5 (creator.createdFrom salt code)

namespace TxFacts

/-- An event touches an account after the events `before`. -/
inductive TouchedBy (f : TxFacts) (before : List Event) : Event → Address → Prop
  | party {e : Entry} {a : Address} (htop : e.depth = 0)
      (ha : a ∈ ((f.after 0 before).withTopEntry e).parties) : TouchedBy f before (.entered e) a
  | target {e : Entry} {a : Address} (ha : f.accountOf e = some a)
      (hcontract : f.precompiled a = false) : TouchedBy f before (.entered e) a
  | created {ending : Ending} {a : Address} (ha : ending.created = some a) :
      TouchedBy f before (.ended ending) a
  | storage {a : Address} {key value : Word} : TouchedBy f before (.storage a key value) a
  /-- The stack is the first after the start of the operation. -/
  | operand {earlier shown : List Event} {op : OpStart} {words : List Word} {a : Address}
      (hbefore : before = earlier ++ .opStarted op :: shown)
      (hshown : ∀ e ∈ shown, e.boundsOperation = false)
      (ha : Names f.precompiled (f.contextAfter before) (lastMemory shown) words op.opcode a) :
      TouchedBy f before (.stack words) a

end TxFacts

/-! ### Operands -/

namespace Opcode

private theorem touchesAddress_iff (opcode : UInt8) :
    touchesAddress opcode = true ↔ opcode ∈ [0x31, 0x3b, 0x3c, 0x3f, 0xff] := by
  unfold touchesAddress
  split <;> simp_all

private theorem isCall_iff (opcode : UInt8) : isCall opcode = true ↔ opcode ∈
    [0xf1, 0xf2, 0xf4, 0xfa] := by
  unfold isCall
  split <;> simp_all

private theorem touchesAddress_of_isCall {opcode : UInt8} (h : isCall opcode = true) :
    touchesAddress opcode = false := by
  unfold isCall at h
  split at h
  all_goals first | rfl | cases h

end Opcode

namespace Prestate

theorem operandTouch_iff (p : Prestate) (opcode : UInt8) (words : List Word) (a : Address) :
    p.operandTouch opcode words = .ok (some a) ↔
      Names p.facts.precompiled p.context p.op.memory words opcode a := by
  unfold operandTouch
  constructor
  · intro h
    split at h
    · next hop =>
      obtain ⟨word, hword, h⟩ := bind_ok_iff.mp h
      cases h
      exact .account ((Opcode.touchesAddress_iff _).mp hop) (Operand.peek_eq_ok_iff.mp hword)
    · split at h
      · next hop =>
        obtain ⟨word, hword, h⟩ := bind_ok_iff.mp h
        cases hcontract : p.facts.precompiled word.toAddress with
        | true => simp only [hcontract, if_true] at h; cases h
        | false =>
          simp only [hcontract] at h
          cases h
          exact .callee ((Opcode.isCall_iff _).mp hop) (Operand.peek_eq_ok_iff.mp hword) hcontract
      · split at h
        · next hop =>
          obtain rfl : opcode = 0xf5 := by simpa [Opcode.isSaltedCreation] using hop
          split at h
          · cases h
          · next creator hcreator =>
            obtain ⟨offset, hoffset, h⟩ := bind_ok_iff.mp h
            obtain ⟨length, hlength, h⟩ := bind_ok_iff.mp h
            obtain ⟨code, hcode, h⟩ := bind_ok_iff.mp h
            obtain ⟨salt, hsalt, h⟩ := bind_ok_iff.mp h
            obtain rfl := Option.some.inj (Except.ok.inj h)
            exact .creation hcreator (Operand.peek_eq_ok_iff.mp hoffset)
              (Operand.peek_eq_ok_iff.mp hlength) (Operand.peek_eq_ok_iff.mp hsalt) hcode
        · cases h
  · intro h
    cases h with
    | account hop hword =>
      rw [if_pos ((Opcode.touchesAddress_iff _).mpr hop), Operand.peek_eq_ok_iff.mpr hword]
      rfl
    | callee hop hword hcontract =>
      have hcall := (Opcode.isCall_iff _).mpr hop
      rw [if_neg (Bool.eq_false_iff.mp (Opcode.touchesAddress_of_isCall hcall)), if_pos hcall,
        Operand.peek_eq_ok_iff.mpr hword]
      simp only [bind, Except.bind, hcontract]
      rfl
    | creation hcreator hoffset hlength hsalt hcode =>
      rw [if_neg (by decide), if_neg (by decide), if_pos (by decide), hcreator,
        Operand.peek_eq_ok_iff.mpr hoffset, Operand.peek_eq_ok_iff.mpr hlength,
        Operand.peek_eq_ok_iff.mpr hsalt]
      simp only [bind, Except.bind, hcode]
      rfl

/-! ### One event -/

private theorem mem_entryTouches (f : TxFacts) (e : Entry) (a : Address) :
    a ∈ entryTouches f e ↔
      (e.depth = 0 ∧ a ∈ f.parties) ∨ (f.accountOf e = some a ∧ f.precompiled a = false) := by
  unfold entryTouches
  rw [targetOf_eq, List.mem_append]
  refine or_congr ?_ ?_
  · by_cases hd : e.depth = 0 <;> simp [hd]
  · simp [Option.filter_eq_some_iff]

private theorem mem_touches_entered {f : TxFacts} {p : Prestate} (hp : From f p) {e : Entry}
    {context : Option Address} {scopes : Nesting (Option Address)} {kept : Bool}
    (henter : p.scopes.enter e.depth context = (scopes, .ok kept)) (a : Address) :
    a ∈ p.touches (.entered e) ↔ (e.depth = 0 ∧ a ∈ (p.facts.withTopEntry e).parties) ∨
      (f.accountOf e = some a ∧ f.precompiled a = false) := by
  obtain ⟨hopened, htop, _⟩ := Nesting.enter_of_whole hp.whole henter
  have hcreated (hd : e.depth = 0) : p.facts.created = f.created :=
    hp.created (hopened.symm.trans hd) (htop hd)
  have hprecompiled : (p.learned (.entered e)).precompiled = f.precompiled := by
    rw [learned]
    split <;> exact hp.precompiled
  rw [show p.touches (.entered e) = entryTouches (p.learned (.entered e)) e from rfl,
    mem_entryTouches, accountOf_learned hcreated, hprecompiled]
  refine or_congr_left (and_congr_right fun hd => ?_)
  rw [learned, if_pos hd]

theorem mem_touches_stack (p : Prestate) (words : List Word) (a : Address) :
    a ∈ p.touches (.stack words) ↔ ∃ opcode, p.op.opcode = some opcode ∧
      Names p.facts.precompiled p.context p.op.memory words opcode a := by
  unfold touches
  constructor
  · intro ha
    cases hopcode : p.op.opcode with
    | none => rw [hopcode] at ha; cases ha
    | some opcode =>
      rw [hopcode] at ha
      dsimp only [Option.map_some] at ha
      split at ha
      · next a' htouch =>
        obtain rfl := List.mem_singleton.mp ha
        exact ⟨opcode, rfl, (p.operandTouch_iff _ _ _).mp (Option.some.inj htouch)⟩
      · cases ha
  · rintro ⟨opcode, hopcode, hnames⟩
    have htouch := (p.operandTouch_iff _ _ _).mpr hnames
    simp only [hopcode, Option.map_some, htouch]
    exact List.mem_singleton.mpr rfl

/-- What a prestate looks at is what the event touches after the events before it. -/
theorem mem_touches_iff {f : TxFacts} {w : World} {before : List Event} {p : Prestate}
    (hrun : (Tracer.prestate (.start f)).run w before = .ok (.prestate p)) {e : Event}
    (h : (p.step w e).2 = .ok ()) (a : Address) :
    a ∈ p.touches e ↔ f.TouchedBy before e a := by
  obtain ⟨hfrom, _, hop, hfacts⟩ := known_of_run (from_start f) hrun
  have hop : p.op = before.foldl PendingOp.next {} := hop
  have hfacts : p.facts = f.after 0 before := hfacts
  have hscopes := scopes_step h
  cases e with
  | entered e =>
    obtain ⟨kept, henter⟩ := hscopes
    rw [mem_touches_entered hfrom henter, hfacts]
    constructor
    · rintro (⟨hd, ha⟩ | ⟨ha, hcontract⟩)
      · exact .party hd ha
      · exact .target ha hcontract
    · intro ha
      cases ha with
      | party hd ha => exact .inl ⟨hd, ha⟩
      | target ha hcontract => exact .inr ⟨ha, hcontract⟩
  | ended ending =>
    have hopened : p.scopes.opened ≠ 0 := by
      intro hz
      rw [Nesting.close_of_opened_zero hz] at hscopes
      cases congrArg Prod.snd hscopes
    rw [touches, if_neg hopened, Option.mem_toList]
    constructor
    · intro ha
      exact .created ha
    · intro ha
      cases ha with
      | created ha => exact ha
  | stack words =>
    rw [mem_touches_stack, hfrom.precompiled, context_of_run hrun, hop]
    constructor
    · rintro ⟨opcode, hopcode, ha⟩
      obtain ⟨earlier, op, shown, hbefore, hshown, rfl⟩ := PendingOp.exists_of_opcode hopcode
      rw [PendingOp.next_of_started hbefore hshown] at ha
      exact .operand hbefore hshown ha
    · intro ha
      cases ha with
      | operand hbefore hshown ha =>
        rw [PendingOp.next_of_started hbefore hshown]
        exact ⟨_, rfl, ha⟩
  | storage a' key value =>
    rw [touches, List.mem_singleton]
    constructor
    · rintro rfl
      exact .storage
    · rintro ⟨⟩
      rfl
  | _ =>
    constructor
    · intro ha
      cases ha
    · intro ha
      cases ha

/-! ### The accounts that are there -/

private theorem contains_noteSlot (accounts : Accounts) (e : Event) (a : Address) :
    (noteSlot accounts e).contains a = accounts.contains a := by
  cases e with
  | storage a' key value =>
    rw [noteSlot, OrdMap.contains, OrdMap.get?_adjust]
    split
    · next ha => rw [Option.isSome_map, ha]; rfl
    · rfl
  | _ => rfl

theorem contains_step {w : World} (hw : w.Readable) (p : Prestate) (e : Event) (a : Address) :
    (p.step w e).1.captured.contains a = true ↔
      p.captured.contains a = true ∨ a ∈ p.touches e := by
  rw [captured_step, contains_noteSlot, contains_lookAll hw]

/-- What the entry of an action with a certain target adds to the accounts, accepted or not. -/
theorem contains_step_entered {w : World} (hw : w.Readable) (p : Prestate) {e : Entry}
    {target : Address} (h : ∀ f, targetOf f e = some target) (a : Address) :
    (p.step w (.entered e)).1.captured.contains a = true ↔ p.captured.contains a = true ∨
      (e.depth = 0 ∧ a ∈ (p.facts.withTopEntry e).parties) ∨
        (a = target ∧ p.facts.precompiled a = false) := by
  have haccount (f : TxFacts) : f.accountOf e = some target := (targetOf_eq f e).symm.trans (h f)
  rw [contains_step hw, touches, mem_entryTouches, haccount, Option.some_inj, eq_comm (a := a)]
  by_cases hd : e.depth = 0
  · rw [if_pos hd]
    rfl
  · simp only [hd, if_false, false_and]

/-- The accounts after events are those before and those that one of the events touches. -/
theorem contains_run {w : World} (hw : w.Readable) {events : List Event} {p q : Prestate}
    (hrun : (Tracer.prestate p).run w events = .ok (.prestate q)) (a : Address) :
    q.captured.contains a = true ↔ p.captured.contains a = true ∨
      ∃ before e rest mid, events = before ++ e :: rest ∧
        (Tracer.prestate p).run w before = .ok (.prestate mid) ∧ (mid.step w e).2 = .ok () ∧
        a ∈ mid.touches e := by
  induction events generalizing p with
  | nil =>
    cases hrun
    simp
  | cons first tail ih =>
    obtain ⟨haccepted, hrest⟩ := run_cons_iff.mp hrun
    rw [ih hrest, contains_step hw, or_assoc]
    refine or_congr_right ?_
    constructor
    · rintro (ha | ⟨before, e, rest, mid, rfl, hmid, hnext, ha⟩)
      · exact ⟨[], first, tail, p, rfl, rfl, haccepted, ha⟩
      · exact ⟨first :: before, e, rest, mid, rfl, run_cons_iff.mpr ⟨haccepted, hmid⟩, hnext, ha⟩
    · rintro ⟨before, e, rest, mid, hsplit, hmid, hnext, ha⟩
      cases before with
      | nil =>
        cases hsplit
        cases hmid
        exact .inl ha
      | cons e' before =>
        cases hsplit
        exact .inr ⟨before, e, rest, mid, rfl, (run_cons_iff.mp hmid).2, hnext, ha⟩

theorem touched_of_run {w : World} (hw : w.Readable) {f : TxFacts} {events : List Event}
    {p : Prestate} (hrun : (Tracer.prestate (.start f)).run w events = .ok (.prestate p))
    (a : Address) :
    p.captured.contains a = true ↔
      ∃ before e rest, events = before ++ e :: rest ∧ f.TouchedBy before e a := by
  rw [contains_run hw hrun]
  constructor
  · rintro (ha | ⟨before, e, rest, mid, hsplit, hmid, haccepted, ha⟩)
    · exact absurd ha Bool.false_ne_true
    · exact ⟨before, e, rest, hsplit, (mem_touches_iff hmid haccepted a).mp ha⟩
  · rintro ⟨before, e, rest, rfl, ha⟩
    obtain ⟨mid, hmid, hrest⟩ := exists_of_run_append hrun
    have haccepted := (run_cons_iff.mp hrest).1
    exact .inr ⟨before, e, rest, mid, rfl, hmid, haccepted,
      (mem_touches_iff hmid haccepted a).mpr ha⟩

/-- A finished prestate has the accounts that an event touches and the parties as they are at the
end, without the contract that the transaction created, and it has no others. -/
theorem contains_output {w : World} (hw : w.Readable) {f : TxFacts} {events : List Event}
    {p : Prestate} (hrun : (Tracer.prestate (.start f)).run w events = .ok (.prestate p)) :
    ∃ accounts, p.output w = .ok accounts ∧ ∀ a, accounts.contains a = true ↔
      ((∃ before e rest, events = before ++ e :: rest ∧ f.TouchedBy before e a) ∨
        a ∈ (f.after 0 events).parties) ∧
      ¬((f.after 0 events).isCreation = true ∧ (f.after 0 events).created = some a) := by
  obtain ⟨_, _, _, hfacts⟩ := known_of_run (from_start f) hrun
  have hfacts : p.facts = f.after 0 events := hfacts
  obtain ⟨accounts, hlook⟩ := lookAll_of_readable hw p.captured p.facts.parties
  have houtput : p.output w = .ok (reconcile p.facts accounts) := by
    rw [output, hlook]
  refine ⟨reconcile p.facts accounts, houtput, fun a => ?_⟩
  have hthere : accounts.contains a = true ↔
      p.captured.contains a = true ∨ a ∈ p.facts.parties := by
    rw [← contains_lookAll hw, hlook]
  rw [← hfacts, ← touched_of_run hw hrun, ← hthere, OrdMap.contains, get?_reconcile]
  by_cases hgone : p.facts.isCreation = true ∧ p.facts.created = some a
  · simp [hgone]
  · rw [if_neg hgone, Option.isSome_map]
    simp [hgone, OrdMap.contains]

private def topCreation : Event :=
  .entered
    { depth := 0, kind := .create, sender := 1, target := none, value := 0, gas := 100, input := []
      salt := none }

private def callingCreation : List Event :=
  [topCreation, .opStarted { pc := 0, opcode := 0xf1, gas := 0, depth := 0 }, .memory [],
    .stack [50, 0x77, 0, 0, 0, 0, 0], .ended (.returned 20 [] (some 0xc))]

theorem contains_output_of_creation :
    ∃ p accounts, (Tracer.prestate (.start {})).run .blank callingCreation =
        .ok (.prestate p) ∧
      p.output .blank = .ok accounts ∧ accounts.contains 0x77 = true ∧
      accounts.contains 0xc = false := by
  have haccepted : Protocol.run {} callingCreation = .ok ⟨0, true⟩ := rfl
  obtain ⟨p, hrun⟩ := exists_run_of_protocol World.readable_blank {} haccepted
  obtain ⟨accounts, houtput, hkeys⟩ := contains_output World.readable_blank hrun
  have hshown : ∀ e ∈ [Event.memory []], e.boundsOperation = false := by
    simp [Event.boundsOperation]
  have hnames : Names Hardfork.prague.isPrecompile none [] [50, 0x77, 0, 0, 0, 0, 0] 0xf1
      (Word.toAddress 0x77) := .callee (by decide) rfl (by decide)
  have hbefore : callingCreation.take 3 = [topCreation] ++
      .opStarted { pc := 0, opcode := 0xf1, gas := 0, depth := 0 } :: [.memory []] := rfl
  refine ⟨p, accounts, hrun, houtput, (hkeys _).mpr ⟨.inl ?_, by decide⟩, ?_⟩
  · exact ⟨callingCreation.take 3, _, _, rfl, .operand hbefore hshown hnames⟩
  · rw [Bool.eq_false_iff]
    intro hcreated
    exact ((hkeys _).mp hcreated).2 ⟨rfl, rfl⟩

end Prestate
end ExecutionTrace
