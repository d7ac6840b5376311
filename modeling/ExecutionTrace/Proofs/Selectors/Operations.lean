import Mathlib.Data.List.Induction
import Mathlib.Data.List.Infix
import Std.Data.String.ToNat
import ExecutionTrace.Proofs.Selectors.Calls
import ExecutionTrace.Proofs.Snapshots

/-! What the histogram counts, told from the events alone. Each operation that starts a call counts
once, under the key that its own first stack and the memory shown before that stack spell, and the
top call counts if it has a key. -/
namespace ExecutionTrace

namespace Event

def startsOperation : Event → Bool
  | .opStarted _ => true
  | _ => false

def isSnapshot : Event → Bool
  | .stack _ | .memory _ => true
  | _ => false

def topEntry? : Event → Option Entry
  | .entered e => if e.depth = 0 then some e else none
  | _ => none

end Event

namespace Selectors

/-- The operands of a call of a function that has a name. The input begins at `offset` and has
`length` bytes; the name is in memory, the rest of the input need not be. -/
structure Operands (precompiled : Address → Bool) (opcode : UInt8) (memory : Bytes)
    (words : List Word) (target offset length : Word) : Prop where
  callee : words[1]? = some target
  input : (opcode ∈ [0xf1, 0xf2] ∧ words[3]? = some offset ∧ words[4]? = some length) ∨
    (opcode ∈ [0xf4, 0xfa] ∧ words[2]? = some offset ∧ words[3]? = some length)
  contract : precompiled target.toAddress = false
  fits : length.toNat < UInt64.size
  long : width ≤ length.toNat
  held : offset.toNat + width ≤ memory.length

/-- The first event starts an operation that calls a function. Its operands are on the first stack
after it, which comes before the next operation starts, and in the memory shown last before that
stack. -/
inductive StartsCall (precompiled : Address → Bool) : List Event → String → Prop
  | intro {op : OpStart} {shown later : List Event} {words : List Word}
      {target offset length : Word} (hshown : ∀ e ∈ shown, e.boundsOperation = false)
      (h : Operands precompiled op.opcode (lastMemory shown) words target offset length) :
      StartsCall precompiled (.opStarted op :: (shown ++ .stack words :: later))
        (key (((lastMemory shown).drop offset.toNat).take width) (length.toNat - width))

structure TopAction where
  kind : ActionKind
  target : Option Address
  input : Bytes

def TopAction.ofEntry (e : Entry) : TopAction := ⟨e.kind, e.target, e.input⟩

/-- The top action is told by its entry, of which an accepted stream has one at most, and else by
what is known beforehand. -/
def topAction (f : TxFacts) (events : List Event) : TopAction :=
  (events.filterMap Event.topEntry?).getLast?.elim ⟨f.kind, f.target, f.input⟩ TopAction.ofEntry

structure TopAction.Calls (top : TopAction) (precompiled : Address → Bool) (name : String) :
    Prop where
  call : top.kind.isCreate = false
  contract : ∃ target, top.target = some target ∧ precompiled target = false
  long : width ≤ top.input.length
  name : key (top.input.take width) (top.input.length - width) = name

/-! ### The keys of operations -/

/-- What comes after the start of an operation shows its stack, with the memory before it. -/
def firstStack? (memory : Bytes) : List Event → Option (Bytes × List Word)
  | [] => none
  | .opStarted _ :: _ => none
  | .stack words :: _ => some (memory, words)
  | .memory bytes :: rest => firstStack? bytes rest
  | _ :: rest => firstStack? memory rest

def pendingKey? (precompiled : Address → Bool) (p : PendingOp) (events : List Event) :
    Option String :=
  (p.opcode.bind Opcode.callInput?).bind fun place =>
    (firstStack? p.memory events).bind fun shown =>
      (operandKey precompiled shown.1 shown.2 place).toOption.join

def startedKey? (precompiled : Address → Bool) : List Event → Option String
  | .opStarted op :: rest => pendingKey? precompiled (.start op) rest
  | _ => none

private theorem op_step {s : Selectors} {e : Event} (h : e.startsOperation = false)
    (hsnapshot : e.isSnapshot = false) : (s.step e).1.op = s.op := by
  cases e with
  | opStarted op => cases h
  | memory bytes => cases hsnapshot
  | stack words => cases hsnapshot
  | entered e =>
    simp only [step]
    split <;> rfl
  | ended ending =>
    simp only [step]
    split <;> rfl
  | settled o =>
    simp only [step]
    split <;> rfl
  | _ => rfl

private theorem pendingKey?_nil (precompiled : Address → Bool) (p : PendingOp) :
    pendingKey? precompiled p [] = none := by
  unfold pendingKey?
  cases p.opcode.bind Opcode.callInput? <;> rfl

private theorem pendingKey?_opStarted (precompiled : Address → Bool) (p : PendingOp) (op : OpStart)
    (rest : List Event) : pendingKey? precompiled p (.opStarted op :: rest) = none := by
  unfold pendingKey?
  cases p.opcode.bind Opcode.callInput? <;> rfl

/-- An event that starts no operation counts the operation in flight or leaves it to be counted. -/
private theorem pending_step (s : Selectors) {e : Event} (h : e.startsOperation = false)
    (rest : List Event) :
    (pendingKey? s.facts.precompiled (s.step e).1.op rest).toList.foldl bump (s.step e).1.counts =
      (pendingKey? s.facts.precompiled s.op (e :: rest)).toList.foldl bump s.counts := by
  by_cases hsnapshot : e.isSnapshot = true
  · cases e with
    | memory bytes => rfl
    | stack words =>
      simp only [step, stackStep, pendingKey?]
      cases hinput : s.op.opcode.bind Opcode.callInput? with
      | none => simp [hinput]
      | some place =>
        rcases hkey : operandKey s.facts.precompiled s.op.memory words place with _ | _ | name <;>
          simp [firstStack?, hkey, PendingOp.clear, Except.toOption]
    | _ => cases hsnapshot
  · have hplain : e.isSnapshot = false := eq_false_of_ne_true hsnapshot
    have hstack : e.isStack = false := by
      cases e with
      | stack words => cases hplain
      | _ => rfl
    have hsame : pendingKey? s.facts.precompiled s.op (e :: rest) =
        pendingKey? s.facts.precompiled s.op rest := by
      cases e with
      | opStarted op => cases h
      | stack words => cases hplain
      | memory bytes => cases hplain
      | _ => rfl
    rw [op_step h hplain, counts_step hstack, hsame]

/-- Events count the operation in flight before them, if its stack is still to come, and then the
operations that they start, in order. -/
private theorem counts_after_eq (s : Selectors) (events : List Event) :
    (s.after events).counts =
      ((pendingKey? s.facts.precompiled s.op events).toList ++
        events.tails.filterMap (startedKey? s.facts.precompiled)).foldl bump s.counts := by
  induction events generalizing s with
  | nil =>
    rw [pendingKey?_nil]
    rfl
  | cons e rest ih =>
    have hafter : s.after (e :: rest) = (s.step e).1.after rest := rfl
    rw [hafter, ih, precompiled_step, List.tails_cons, List.foldl_append, List.foldl_append]
    by_cases hstart : e.startsOperation = true
    · cases e with
      | opStarted op =>
        have hkey : startedKey? s.facts.precompiled (.opStarted op :: rest) =
            pendingKey? s.facts.precompiled (.start op) rest := rfl
        rw [pendingKey?_opStarted]
        cases hpending : pendingKey? s.facts.precompiled (.start op) rest with
        | none => rw [List.filterMap_cons_none (hkey.trans hpending)]; simp [step, hpending]
        | some name => rw [List.filterMap_cons_some (hkey.trans hpending)]; simp [step, hpending]
      | _ => cases hstart
    · have hother : e.startsOperation = false := eq_false_of_ne_true hstart
      have hnone : startedKey? s.facts.precompiled (e :: rest) = none := by
        cases e with
        | opStarted op => cases hother
        | _ => rfl
      rw [pending_step s hother, List.filterMap_cons_none hnone]

/-! ### What a key says of an operation -/

private theorem getLast?_getD_cons {α : Type} (a b : α) (l : List α) :
    (a :: l).getLast?.getD b = l.getLast?.getD a := by
  rw [List.getLast?_cons]
  rfl

private theorem firstStack?_of_shown {shown : List Event}
    (hshown : ∀ e ∈ shown, e.boundsOperation = false)
    (memory : Bytes) (words : List Word) (later : List Event) :
    firstStack? memory (shown ++ .stack words :: later) =
      some ((shown.filterMap Event.memory?).getLast?.getD memory, words) := by
  induction shown generalizing memory with
  | nil => rfl
  | cons e rest ih =>
    have hrest := ih fun e he => hshown e (List.mem_cons_of_mem _ he)
    have he := hshown e List.mem_cons_self
    cases e with
    | opStarted op => cases he
    | stack words => cases he
    | memory bytes =>
      have hmemory : Event.memory? (.memory bytes) = some bytes := rfl
      rw [List.filterMap_cons_some hmemory, getLast?_getD_cons]
      exact hrest bytes
    | _ => exact hrest memory

private theorem shown_of_firstStack? {memory last : Bytes} {words : List Word} {events : List Event}
    (h : firstStack? memory events = some (last, words)) :
    ∃ shown later, events = shown ++ .stack words :: later ∧
      (∀ e ∈ shown, e.boundsOperation = false) ∧
      last = (shown.filterMap Event.memory?).getLast?.getD memory := by
  induction events generalizing memory with
  | nil => cases h
  | cons e rest ih =>
    cases e with
    | opStarted op => cases h
    | stack seen => cases h; exact ⟨[], rest, rfl, by simp, rfl⟩
    | memory bytes =>
      obtain ⟨shown, later, hevents, hshown, hlast⟩ := ih h
      exact ⟨.memory bytes :: shown, later, congrArg _ hevents,
        List.forall_mem_cons.mpr ⟨rfl, hshown⟩,
        hlast.trans (getLast?_getD_cons bytes memory _).symm⟩
    | _ =>
      obtain ⟨shown, later, hevents, hshown, hlast⟩ := ih h
      exact ⟨_ :: shown, later, congrArg _ hevents, List.forall_mem_cons.mpr ⟨rfl, hshown⟩, hlast⟩

private theorem callInput?_eq_some_iff {opcode : UInt8} {place : Nat × Nat} :
    Opcode.callInput? opcode = some place ↔
      (opcode ∈ [0xf1, 0xf2] ∧ place = (3, 4)) ∨ (opcode ∈ [0xf4, 0xfa] ∧ place = (2, 3)) := by
  unfold Opcode.callInput?
  split <;> simp_all [eq_comm]

private theorem operandKey_eq_ok_some_iff {precompiled : Address → Bool} {memory : Bytes}
    {words : List Word} {place : Nat × Nat} {name : String}
    (hmemory : memory.length < UInt64.size) :
    operandKey precompiled memory words place = .ok (some name) ↔
      ∃ target offset length, words[1]? = some target ∧ words[place.1]? = some offset ∧
        words[place.2]? = some length ∧ precompiled target.toAddress = false ∧
        length.toNat < UInt64.size ∧ width ≤ length.toNat ∧
        offset.toNat + width ≤ memory.length ∧
        key ((memory.drop offset.toNat).take width) (length.toNat - width) = name := by
  constructor
  · intro h
    unfold operandKey at h
    obtain ⟨target, htarget, h⟩ := bind_ok_iff.mp h
    dsimp only at h
    split at h
    · cases h
    · next hcontract =>
      obtain ⟨length, hlength, h⟩ := bind_ok_iff.mp h
      obtain ⟨count, hcount, h⟩ := bind_ok_iff.mp h
      obtain ⟨hfits, rfl⟩ := Operand.size_eq_ok_iff.mp hcount
      split at h
      · cases h
      · next hlong =>
        obtain ⟨offset, hoffset, h⟩ := bind_ok_iff.mp h
        obtain ⟨bytes, hslice, h⟩ := bind_ok_iff.mp h
        obtain ⟨hinside, rfl⟩ := (Operand.slice_eq_ok_iff hmemory).mp hslice
        have hheld : offset.toNat + width ≤ memory.length := hinside.resolve_left (by decide)
        cases h
        exact ⟨target, offset, length, Operand.peek_eq_ok_iff.mp htarget,
          Operand.peek_eq_ok_iff.mp hoffset, Operand.peek_eq_ok_iff.mp hlength,
          eq_false_of_ne_true hcontract, hfits, Nat.le_of_not_lt hlong, hheld, rfl⟩
  · rintro ⟨target, offset, length, htarget, hoffset, hlength, hcontract, hfits, hlong, hheld, rfl⟩
    exact operandKey_of_held precompiled htarget hoffset hlength hcontract hlong hfits hheld hmemory

private theorem toOption_join_eq_some_iff {ε α : Type} {x : Except ε (Option α)} {a : α} :
    x.toOption.join = some a ↔ x = .ok (some a) := by
  rcases x with _ | _ | _ <;> simp [Except.toOption]

/-- An operation has a key exactly if its operands are those of a call of a function with a name. -/
private theorem key_eq_some_iff {precompiled : Address → Bool} {opcode : UInt8} {memory : Bytes}
    {words : List Word} {name : String} (hmemory : memory.length < UInt64.size) :
    ((Opcode.callInput? opcode).bind fun place =>
        (operandKey precompiled memory words place).toOption.join) = some name ↔
      ∃ target offset length, Operands precompiled opcode memory words target offset length ∧
        key ((memory.drop offset.toNat).take width) (length.toNat - width) = name := by
  simp only [Option.bind_eq_some_iff, toOption_join_eq_some_iff,
    operandKey_eq_ok_some_iff hmemory, callInput?_eq_some_iff]
  constructor
  · rintro ⟨place, hplace, target, offset, length, htarget, hoffset, hlength, hcontract, hfits,
      hlong, hheld, hname⟩
    refine ⟨target, offset, length, ⟨htarget, ?_, hcontract, hfits, hlong, hheld⟩, hname⟩
    obtain ⟨hopcode, rfl⟩ | ⟨hopcode, rfl⟩ := hplace
    · exact .inl ⟨hopcode, hoffset, hlength⟩
    · exact .inr ⟨hopcode, hoffset, hlength⟩
  · rintro ⟨target, offset, length, h, hname⟩
    obtain ⟨hopcode, hoffset, hlength⟩ | ⟨hopcode, hoffset, hlength⟩ := h.input
    · exact ⟨(3, 4), .inl ⟨hopcode, rfl⟩, target, offset, length, h.callee, hoffset, hlength,
        h.contract, h.fits, h.long, h.held, hname⟩
    · exact ⟨(2, 3), .inr ⟨hopcode, rfl⟩, target, offset, length, h.callee, hoffset, hlength,
        h.contract, h.fits, h.long, h.held, hname⟩

/-- Memories are no longer than a machine can address. -/
def Addressable (events : List Event) : Prop :=
  ∀ bytes, .memory bytes ∈ events → bytes.length < UInt64.size

private theorem length_lastMemory {shown : List Event} (h : Addressable shown) :
    (lastMemory shown).length < UInt64.size := by
  unfold lastMemory
  cases hlast : (shown.filterMap Event.memory?).getLast? with
  | none => decide
  | some bytes =>
    obtain ⟨e, he, hbytes⟩ := List.mem_filterMap.mp (List.mem_of_getLast? hlast)
    cases e with
    | memory _ => cases hbytes; exact h bytes he
    | _ => cases hbytes

private theorem startedKey?_eq_some_iff {precompiled : Address → Bool} {events : List Event}
    (h : Addressable events) {name : String} :
    startedKey? precompiled events = some name ↔ StartsCall precompiled events name := by
  have hmemory {op : OpStart} {shown after : List Event}
      (hevents : events = .opStarted op :: (shown ++ after)) :
      (lastMemory shown).length < UInt64.size :=
    length_lastMemory fun bytes hbytes => h bytes <| by
      rw [hevents]
      exact List.mem_cons_of_mem _ (List.mem_append_left _ hbytes)
  constructor
  · intro hkey
    match events, hkey with
    | .opStarted op :: rest, hkey =>
      obtain ⟨place, hplace, hkey⟩ := Option.bind_eq_some_iff.mp hkey
      obtain ⟨⟨memory, words⟩, hstack, hkey⟩ := Option.bind_eq_some_iff.mp hkey
      obtain ⟨shown, later, rfl, hshown, rfl⟩ := shown_of_firstStack? hstack
      obtain ⟨target, offset, length, hoperands, rfl⟩ := (key_eq_some_iff (hmemory rfl)).mp
        (Option.bind_eq_some_iff.mpr ⟨place, hplace, hkey⟩)
      exact .intro hshown hoperands
  · rintro ⟨hshown, hoperands⟩
    obtain ⟨place, hplace, hkey⟩ := Option.bind_eq_some_iff.mp
      ((key_eq_some_iff (hmemory rfl)).mpr ⟨_, _, _, hoperands, rfl⟩)
    exact Option.bind_eq_some_iff.mpr ⟨place, hplace,
      Option.bind_eq_some_iff.mpr ⟨_, firstStack?_of_shown hshown [] _ _, hkey⟩⟩

open Classical in
/-- Of the places in a stream, those that add to a key are where a call of it starts. -/
private theorem count_startedKeys {precompiled : Address → Bool} {events : List Event}
    (h : Addressable events) (name : String) :
    (events.tails.filterMap (startedKey? precompiled)).count name =
      events.tails.countP fun rest => decide (StartsCall precompiled rest name) := by
  rw [List.count_filterMap]
  refine List.countP_congr fun rest hrest => ?_
  have haddressable : Addressable rest := fun bytes hbytes =>
    h bytes (((List.mem_tails rest events).mp hrest).subset hbytes)
  rw [beq_iff_eq, startedKey?_eq_some_iff haddressable, decide_eq_true_iff]

/-! ### The top action -/

/-- What is known of a transaction tells its top action. A creation calls no account, whatever its
entry names. -/
structure Knows (f : TxFacts) (top : TopAction) : Prop where
  kind : f.kind = top.kind
  target : top.kind.isCreate = false → f.target = top.target
  input : f.input = top.input

private theorem topKey_eq_some_iff {f : TxFacts} {top : TopAction} (h : Knows f top)
    {name : String} : topKey f = some name ↔ top.Calls f.precompiled name := by
  have hinput := h.input
  unfold topKey TxFacts.isCreation
  rw [h.kind]
  constructor
  · intro hkey
    split at hkey
    · next target htarget =>
      split at hkey
      · cases hkey
      · next hcounted =>
        simp only [Bool.or_eq_true, decide_eq_true_eq, not_or, Bool.not_eq_true,
          Nat.not_lt] at hcounted
        obtain ⟨⟨hcall, hcontract⟩, hlong⟩ := hcounted
        refine ⟨hcall, ⟨target, (h.target hcall).symm.trans htarget, hcontract⟩, hinput ▸ hlong, ?_⟩
        rw [← hinput]
        exact Option.some.inj hkey
    · cases hkey
  · rintro ⟨hcall, ⟨target, htarget, hcontract⟩, hlong, rfl⟩
    rw [h.target hcall, htarget]
    simp [hcall, hcontract, hlong, hinput]

private theorem knows_step {s : Selectors} {top : TopAction} (h : Knows s.facts top) (e : Event) :
    Knows (s.step e).1.facts (e.topEntry?.elim top TopAction.ofEntry) := by
  cases e with
  | entered e =>
    have hfacts : (s.step (.entered e)).1.facts =
        if e.depth = 0 then s.facts.withTopEntry e else s.facts := by
      simp only [step]
      split <;> rfl
    rw [hfacts, Event.topEntry?]
    by_cases hdepth : e.depth = 0
    · rw [if_pos hdepth, if_pos hdepth]
      refine ⟨rfl, fun hcall => ?_, rfl⟩
      exact if_neg (Bool.eq_false_iff.mp hcall)
    · rw [if_neg hdepth, if_neg hdepth]
      exact h
  | ended ending =>
    simp only [step]
    split <;> exact h
  | stack words =>
    simp only [step, stackStep]
    split
    · exact h
    · split <;> exact h
  | settled o =>
    simp only [step]
    split <;> exact ⟨h.kind, h.target, h.input⟩
  | _ => exact h

private theorem knows_after (f : TxFacts) (events : List Event) :
    Knows ((start f).after events).facts (topAction f events) := by
  induction events using List.reverseRecOn with
  | nil => exact ⟨rfl, fun _ => rfl, rfl⟩
  | append_singleton events e ih =>
    have hlast : topAction f (events ++ [e]) =
        e.topEntry?.elim (topAction f events) TopAction.ofEntry := by
      unfold topAction
      rw [List.filterMap_append]
      cases he : e.topEntry? with
      | none => simp [he]
      | some entry => simp [he]
    rw [after_append, hlast]
    exact knows_step ih e

/-! ### Keys -/

private theorem length_digits (bytes : Bytes) : (Hex.digits bytes).length = 2 * bytes.length := by
  induction bytes with
  | nil => rfl
  | cons b rest ih =>
    have hdigits : Hex.digits (b :: rest) = Hex.pair b ++ Hex.digits rest := rfl
    have hpair : (Hex.pair b).length = 2 := rfl
    rw [hdigits, List.length_append, ih, hpair, List.length_cons]
    omega

/-- Different functions, and inputs of different lengths, have different keys. -/
theorem key_injective {name name' : Bytes} {rest rest' : Nat} (hname : name.length = width)
    (hname' : name'.length = width) (h : key name rest = key name' rest') :
    name = name' ∧ rest = rest' := by
  have hlength : (Hex.ofBytes name).toList.length = (Hex.ofBytes name').toList.length := by
    simp [Hex.ofBytes, length_digits, hname, hname']
  have htexts := congrArg String.toList h
  simp only [key, String.toList_append, List.append_assoc] at htexts
  obtain ⟨hnames, hrests⟩ := List.append_inj htexts hlength
  refine ⟨Hex.ofBytes_injective (String.toList_inj.mp hnames), ?_⟩
  exact Nat.repr_injective (String.toList_inj.mp (List.append_cancel_left hrests))

/-! ### Snapshots of an operation that is used up -/

/-- No call is in flight whose stack is still to come. -/
def Idle (s : Selectors) : Prop := s.op.opcode.bind Opcode.callInput? = none

/-- The two differ at most in what is held of an operation that counts no more. -/
structure Alike (s t : Selectors) : Prop where
  facts : s.facts = t.facts
  counts : s.counts = t.counts
  scopes : s.scopes = t.scopes
  op : s.op = t.op ∨ (s.Idle ∧ t.Idle)

private theorem idle_stackStep (s : Selectors) (words : List Word) : (stackStep s words).Idle := by
  unfold stackStep
  split
  · next hidle => exact hidle
  · split <;> rfl

private theorem stackStep_of_idle {s : Selectors} (h : s.Idle) (words : List Word) :
    stackStep s words = s := by
  unfold stackStep
  rw [h]

private theorem idle_step {s : Selectors} (h : s.Idle) {e : Event}
    (he : e.startsOperation = false) : (s.step e).1.Idle := by
  by_cases hsnapshot : e.isSnapshot = true
  · cases e with
    | stack words => exact idle_stackStep s words
    | memory bytes => exact h
    | _ => cases hsnapshot
  · rw [Idle, op_step he (eq_false_of_ne_true hsnapshot)]
    exact h

private theorem alike_of_snapshot {s : Selectors} (h : s.Idle) {e : Event}
    (he : e.isSnapshot = true) : (s.step e).1.Alike s ∧ (s.step e).2 = .ok () := by
  cases e with
  | stack words =>
    simp only [step, stackStep_of_idle h]
    exact ⟨⟨rfl, rfl, rfl, .inl rfl⟩, trivial⟩
  | memory bytes => exact ⟨⟨rfl, rfl, rfl, .inr ⟨h, h⟩⟩, rfl⟩
  | _ => cases he

private theorem alike_step {s t : Selectors} (h : s.Alike t) (e : Event) :
    (s.step e).1.Alike (t.step e).1 ∧ (s.step e).2 = (t.step e).2 := by
  obtain ⟨facts, counts, scopes, op⟩ := s
  obtain ⟨rfl, rfl, rfl, hop⟩ := h
  cases e with
  | entered e =>
    simp only [step]
    split <;> exact ⟨⟨rfl, rfl, rfl, hop⟩, rfl⟩
  | ended ending =>
    simp only [step]
    split <;> exact ⟨⟨rfl, rfl, rfl, hop⟩, rfl⟩
  | opStarted op => exact ⟨⟨rfl, rfl, rfl, .inl rfl⟩, rfl⟩
  | memory bytes =>
    exact ⟨⟨rfl, rfl, rfl, hop.imp (congrArg fun p => PendingOp.withMemory p bytes) id⟩, rfl⟩
  | stack words =>
    simp only [step]
    obtain rfl | ⟨hs, ht⟩ := hop
    · exact ⟨⟨rfl, rfl, rfl, .inl rfl⟩, trivial⟩
    · rw [stackStep_of_idle hs, stackStep_of_idle ht]
      exact ⟨⟨rfl, rfl, rfl, .inr ⟨hs, ht⟩⟩, trivial⟩
  | settled o =>
    simp only [step]
    split <;> exact ⟨⟨rfl, rfl, rfl, hop⟩, rfl⟩
  | _ => exact ⟨⟨rfl, rfl, rfl, hop⟩, rfl⟩

theorem alike_run {w : World} {s t : Selectors} (h : s.Alike t) {events : List Event} {u : Tracer}
    (hrun : (Tracer.selectors s).run w events = .ok u) :
    ∃ v, (Tracer.selectors t).run w events = .ok v ∧ v.result w = u.result w := by
  induction events generalizing s t with
  | nil =>
    cases hrun
    refine ⟨.selectors t, rfl, ?_⟩
    simp only [Tracer.result, output, h.facts, h.counts]
  | cons e rest ih =>
    obtain ⟨halike, hanswer⟩ := alike_step h e
    rw [Tracer.run, Tracer.step] at hrun ⊢
    rcases hs : s.step e with ⟨next, answer⟩
    rcases ht : t.step e with ⟨next', answer'⟩
    rw [hs, ht] at halike hanswer
    rw [hs] at hrun
    dsimp only at halike hanswer hrun ⊢
    subst hanswer
    rcases answer with fault | _
    · cases hrun
    · exact ih halike hrun

private theorem idle_after {s : Selectors} (h : s.Idle) {events : List Event}
    (hevents : ∀ e ∈ events, e.startsOperation = false) : (s.after events).Idle := by
  induction events generalizing s with
  | nil => exact h
  | cons e rest ih =>
    exact ih (idle_step h (hevents e List.mem_cons_self)) fun e he =>
      hevents e (List.mem_cons_of_mem _ he)

/-- Once the first stack of an operation was shown, all that is shown until the next operation
starts makes no difference. -/
private theorem run_without_snapshot {w : World} {s : Selectors} {first between last : List Event}
    {words : List Word} {e : Event} (hbetween : ∀ e ∈ between, e.startsOperation = false)
    (he : e.isSnapshot = true) {t : Tracer}
    (hrun : (Tracer.selectors s).run w ((first ++ .stack words :: between) ++ e :: last) = .ok t) :
    ∃ u, (Tracer.selectors s).run w ((first ++ .stack words :: between) ++ last) = .ok u ∧
      u.result w = t.result w := by
  rw [Tracer.run_append] at hrun ⊢
  obtain ⟨mid, hmid, hrest⟩ := bind_ok_iff.mp hrun
  obtain rfl := Tracer.run_selectors hmid
  have hidle : (s.after (first ++ .stack words :: between)).Idle := by
    rw [after_append]
    exact idle_after (idle_stackStep _ _) hbetween
  obtain ⟨halike, _⟩ := alike_of_snapshot hidle he
  obtain ⟨u, hu, hresult⟩ := alike_run halike (Tracer.run_cons hrest).2
  exact ⟨u, bind_ok_iff.mpr ⟨_, hmid, hu⟩, hresult⟩

/-! ### The histogram -/

/-- A histogram has no entry of zero. -/
private theorem pos_of_get?_foldl_bump {counts : OrdMap String Nat}
    (h : ∀ name n, counts.get? name = some n → 0 < n) (bumped : List String) {name : String}
    {n : Nat} (hn : (bumped.foldl bump counts).get? name = some n) : 0 < n := by
  induction bumped generalizing counts with
  | nil => exact h name n hn
  | cons first rest ih =>
    refine ih (fun name n hname => ?_) hn
    rw [bump, OrdMap.get?_insert] at hname
    split at hname
    · cases hname
      exact Nat.succ_pos _
    · exact h name n hname

private theorem get?_foldl_bump_eq_some_iff {bumped : List String} {name : String} {n : Nat} :
    (bumped.foldl bump ∅).get? name = some n ↔ 0 < n ∧ n = bumped.count name := by
  have hcount : count (bumped.foldl bump ∅) name = bumped.count name := by
    rw [count_foldl_bump, count_empty, Nat.zero_add]
  have hempty (name : String) (n : Nat) (h : (∅ : OrdMap String Nat).get? name = some n) :
      0 < n := by cases h
  rw [← hcount]
  constructor
  · intro h
    exact ⟨pos_of_get?_foldl_bump hempty bumped h, by rw [count, h]; rfl⟩
  · rintro ⟨hpos, rfl⟩
    unfold count at hpos ⊢
    cases h : (bumped.foldl bump ∅).get? name with
    | none => rw [h] at hpos; cases hpos
    | some n => rfl

/-- The finished histogram counts the operations that have keys, and the top call. -/
theorem output_after_eq (f : TxFacts) (events : List Event) :
    ((start f).after events).output =
      (events.tails.filterMap (startedKey? f.precompiled) ++
        (topKey ((start f).after events).facts).toList).foldl bump ∅ := by
  have hcounts : ((start f).after events).counts =
      (events.tails.filterMap (startedKey? f.precompiled)).foldl bump ∅ :=
    counts_after_eq (start f) events
  rw [List.foldl_append, ← hcounts, output]
  cases topKey ((start f).after events).facts <;> rfl

open Classical in
private theorem count_topKey (f : TxFacts) (events : List Event) (name : String) :
    (topKey ((start f).after events).facts).toList.count name =
      if (topAction f events).Calls f.precompiled name then 1 else 0 := by
  have hprecompiled : ((start f).after events).facts.precompiled = f.precompiled :=
    precompiled_after (start f) events
  have hcalls : topKey ((start f).after events).facts = some name ↔
      (topAction f events).Calls f.precompiled name := by
    rw [← hprecompiled]
    exact topKey_eq_some_iff (knows_after f events)
  by_cases h : (topAction f events).Calls f.precompiled name
  · rw [if_pos h, hcalls.mpr h, Option.toList_some, List.count_singleton_self]
  · rw [if_neg h, List.count_eq_zero, Option.mem_toList]
    exact fun hname => h (hcalls.mp hname)

open Classical in
/-- The histogram of an accepted stream counts the calls that operations start, as the events show
them, and the top call. Keys do not mix functions up, and what is shown once more of an operation
whose stack was shown changes nothing. -/
theorem histogram_of_run {w : World} {f : TxFacts} {events : List Event} {t : Tracer}
    (hmemory : Addressable events) (hrun : (Tracer.selectors (.start f)).run w events = .ok t) :
    (∃ counts, t.result w = .ok (.selectors counts) ∧ ∀ name n,
      counts.get? name = some n ↔
        0 < n ∧ n = (events.tails.countP fun rest => decide (StartsCall f.precompiled rest name)) +
          if (topAction f events).Calls f.precompiled name then 1 else 0) ∧
    (∀ name name' rest rest', name.length = width → name'.length = width →
      key name rest = key name' rest' → name = name' ∧ rest = rest') ∧
    ∀ first words between e last,
      events = (first ++ .stack words :: between) ++ e :: last →
      (∀ e ∈ between, e.startsOperation = false) → e.isSnapshot = true →
      ∃ u, (Tracer.selectors (.start f)).run w ((first ++ .stack words :: between) ++ last) =
          .ok u ∧
        u.result w = t.result w := by
  refine ⟨?_, fun _ _ _ _ => key_injective, ?_⟩
  · obtain rfl := Tracer.run_selectors hrun
    refine ⟨_, rfl, fun name n => ?_⟩
    rw [output_after_eq, get?_foldl_bump_eq_some_iff, List.count_append,
      count_startedKeys hmemory, count_topKey]
  · rintro first words between e last rfl hbetween he
    exact run_without_snapshot hbetween he hrun

/-- A call of a function, from which the function is called again. The stack is shown twice. -/
private def recursionStart : List Event :=
  [.entered
      { depth := 0, kind := .call, sender := 1, target := some 0xbeef, value := 0
        gas := 90000, input := [0xa9, 0x05, 0x9c, 0xbb], salt := none },
    .opStarted { pc := 40, opcode := 0xf1, gas := 0, depth := 0 },
    .memory ([0xa9, 0x05, 0x9c, 0xbb] ++ List.replicate 28 0)]

private def recursionStack : List Word := [50000, 0xbeef, 0, 0, 4, 0, 0]

private def recursionEnd : List Event := [.ended (.returned 80000 [] none)]

private def recursion : List Event :=
  (recursionStart ++ .stack recursionStack :: []) ++ .stack recursionStack :: recursionEnd

open Classical in
theorem histogram_of_recursion :
    ∃ t, (Tracer.selectors (.start {})).run .blank recursion = .ok t ∧
      (∃ counts, t.result .blank = .ok (.selectors counts) ∧
        counts.get? "0xa9059cbb-0" = some 2 ∧
        2 = (recursion.tails.countP fun rest =>
            decide (StartsCall Hardfork.prague.isPrecompile rest "0xa9059cbb-0")) +
          if (topAction {} recursion).Calls Hardfork.prague.isPrecompile "0xa9059cbb-0"
            then 1 else 0) ∧
      ∃ u, (Tracer.selectors (.start {})).run .blank
          ((recursionStart ++ .stack recursionStack :: []) ++ recursionEnd) = .ok u ∧
        u.result .blank = t.result .blank := by
  have hmemory : Addressable recursion := by
    intro bytes hbytes
    simp [recursion, recursionStart, recursionEnd] at hbytes
    subst hbytes
    decide
  obtain ⟨⟨counts, hcounts, hiff⟩, _, hshorter⟩ :=
    histogram_of_run (w := .blank) (f := {}) hmemory rfl
  refine ⟨_, rfl, ⟨counts, hcounts, ?_⟩, hshorter _ _ [] _ _ rfl (by simp) rfl⟩
  have htwo : counts.get? "0xa9059cbb-0" = some 2 := by
    cases hcounts
    rfl
  exact ⟨htwo, ((hiff _ _).mp htwo).2⟩

end Selectors
end ExecutionTrace
