import ExecutionTrace.Proofs.Operand
import ExecutionTrace.Proofs.Recorder.Actions
import ExecutionTrace.Proofs.Selectors.Histogram

/-! The calls of a call tree against the histogram of the same recording. The two see a call in two
ways: the tree from the input that the machine passes, the histogram from the operands and from
memory as they are before the operation expands memory. They agree on every call whose function is
named by memory that is there. -/
namespace ExecutionTrace

def ActionKind.isCall : ActionKind → Bool
  | call | callCode | delegateCall | staticCall => true
  | _ => false

/-- Whether an action is a call of the function `name` with `rest` bytes after the name. Precompiled
contracts have no functions. -/
def Selectors.invokes (precompiled : Address → Bool) (name : Bytes) (rest : Nat) (kind : ActionKind)
    (target : Option Address) (input : Bytes) : Bool :=
  kind.isCall && target.any (!precompiled ·) && decide (input.take width = name) &&
    decide (input.length = width + rest)

/-! ### All frames of a tree -/

mutual

/-- A frame and all frames inside it, in the order in which they were entered. -/
def Frame.flat : Frame → List Frame
  | ⟨kind, sender, gas, gasUsed, target, input, output, error, reason, calls, logs, value⟩ =>
    ⟨kind, sender, gas, gasUsed, target, input, output, error, reason, calls, logs, value⟩ ::
      Frame.flatAll calls

def Frame.flatAll : List Frame → List Frame
  | [] => []
  | call :: calls => Frame.flat call ++ Frame.flatAll calls

end

mutual

def Outline.flat : Outline → List Outline
  | ⟨kind, sender, target, value, gas, input, failed, inside⟩ =>
    ⟨kind, sender, target, value, gas, input, failed, inside⟩ :: Outline.flatAll inside

def Outline.flatAll : List Outline → List Outline
  | [] => []
  | call :: calls => Outline.flat call ++ Outline.flatAll calls

end

mutual

private theorem map_outline_flat : (frame : Frame) →
    frame.flat.map Frame.outline = frame.outline.flat
  | ⟨_, _, _, _, _, _, _, _, _, calls, _, _⟩ => by
    rw [Frame.flat, List.map_cons, map_outline_flatAll calls]
    rfl

private theorem map_outline_flatAll : (calls : List Frame) →
    (Frame.flatAll calls).map Frame.outline = Outline.flatAll (Frame.outlines calls)
  | [] => rfl
  | call :: calls => by
    rw [Frame.flatAll, List.map_append, map_outline_flat call, map_outline_flatAll calls]
    rfl

end

/-! ### The calls among hooks -/

/-- A call among hooks, with the operation shown by the hook right before it, if there was one. -/
structure InnerCall where
  shown : Option Shown
  kind : ActionKind
  target : Address
  codeAddress : Address
  input : Bytes

def Opening.innerCall? (shown : Option Shown) : Opening → Option InnerCall
  | call scheme _ target codeAddress _ _ input =>
    some { shown, kind := scheme.kind, target, codeAddress, input }
  | create _ _ _ _ _ => none

def HookBody.calls (shown : Option Shown) : HookBody → List InnerCall
  | done => []
  | step opcode _ stack memory _ rest => rest.calls (some ⟨opcode, stack, memory⟩)
  | log _ rest => rest.calls none
  | selfDestruct _ _ _ rest => rest.calls none
  | action opening inside _ rest =>
    (opening.innerCall? shown).toList ++ (inside.calls none ++ rest.calls none)

namespace Shown

def offset? (s : Shown) : Option Word :=
  (Opcode.callInput? s.opcode).bind fun place => s.stack[place.1]?

def length? (s : Shown) : Option Word :=
  (Opcode.callInput? s.opcode).bind fun place => s.stack[place.2]?

/-- The input of the call: a range of memory, for which the machine first expands memory with zeros
where it has to. -/
def input? (s : Shown) : Option Bytes :=
  s.offset?.bind fun offset => s.length?.map fun length =>
    Bytes.window s.memory.data.toList offset.toNat length.toNat

/-- Whether the name of the function called is in memory before memory is expanded. -/
def holdsName (s : Shown) : Bool :=
  s.offset?.any fun offset => decide (offset.toNat + Selectors.width ≤ s.memory.size)

/-- The operation makes the call: its operands are what the machine passes. -/
structure Opens (s : Shown) (c : InnerCall) : Prop where
  code : s.stack[1]?.map Word.toAddress = some c.codeAddress
  input : s.input? = some c.input
  /-- A call that does not run foreign code for its caller acts on the account with the code. -/
  target : c.kind.inCallerContext = false → c.target = c.codeAddress
  memory_fits : s.memory.size < UInt64.size
  input_fits : c.input.length < UInt64.size

end Shown

namespace InnerCall

def Opened (c : InnerCall) : Prop := ∃ s, c.shown = some s ∧ s.Opens c

def account (c : InnerCall) : Address :=
  if c.kind.inCallerContext then c.codeAddress else c.target

/-- Whether the name of the function called is, in whole or in part, past the end of memory when the
operation that makes the call is shown. -/
def namedPastMemory (c : InnerCall) : Bool := !c.shown.any Shown.holdsName

private theorem account_of_opens {c : InnerCall} {s : Shown} (h : s.Opens c) :
    c.account = c.codeAddress := by
  unfold account
  split
  · rfl
  · next hkind => exact h.target (eq_false_of_ne_true hkind)

end InnerCall

/-! ### The frames of calls -/

section Invocations

variable (precompiled : Address → Bool) (name : Bytes) (rest : Nat)

def Frame.invokes (frame : Frame) : Bool :=
  Selectors.invokes precompiled name rest frame.kind frame.target frame.input

def Outline.invokes (outline : Outline) : Bool :=
  Selectors.invokes precompiled name rest outline.kind outline.target outline.input

def InnerCall.invokes (c : InnerCall) : Bool :=
  Selectors.invokes precompiled name rest c.kind (some c.account) c.input

private theorem Outline.invokes_outline (frame : Frame) :
    frame.outline.invokes precompiled name rest = frame.invokes precompiled name rest := by
  cases frame
  rw [Frame.outline]
  rfl

private theorem Outline.countP_flatAll_outlines (calls : List Frame) :
    (Outline.flatAll (Frame.outlines calls)).countP (Outline.invokes precompiled name rest) =
      (Frame.flatAll calls).countP (Frame.invokes precompiled name rest) := by
  rw [← map_outline_flatAll, List.countP_map]
  exact List.countP_congr fun frame _ => by
    rw [Function.comp_apply, invokes_outline]

private theorem Opening.countP_innerCall (opening : Opening) (closing : Closing)
    (inside : List Outline) (shown : Option Shown) :
    (opening.innerCall? shown).toList.countP (InnerCall.invokes precompiled name rest) =
      if (opening.outline closing inside).invokes precompiled name rest then 1 else 0 := by
  rcases opening with ⟨scheme, _⟩ | ⟨_, _ | _, _⟩
  · rw [innerCall?, Option.toList_some, List.countP_singleton]
    cases scheme <;> rfl
  · rfl
  · rfl

/-- Of the frames, those that invoke a function are one for each call among the hooks that does. -/
private theorem HookBody.countP_flatAll_outlines (body : HookBody) (shown : Option Shown) :
    (Outline.flatAll body.outlines).countP (Outline.invokes precompiled name rest) =
      (body.calls shown).countP (InnerCall.invokes precompiled name rest) := by
  induction body generalizing shown with
  | done => rfl
  | step opcode pc stack memory target tail ih => exact ih _
  | log entry tail ih => exact ih _
  | selfDestruct contract beneficiary value tail ih => exact ih _
  | action opening inside closing tail ihInside ihTail =>
    have hflat : (opening.outline closing inside.outlines).flat =
        opening.outline closing inside.outlines :: Outline.flatAll inside.outlines := by
      cases opening <;> rfl
    rw [outlines, Outline.flatAll, hflat, List.cons_append, List.countP_cons, List.countP_append,
      ihInside none, ihTail none, calls, List.countP_append, List.countP_append,
      Opening.countP_innerCall precompiled name rest opening closing inside.outlines]
    omega

/-- Whether a call invokes the function while memory, as the operation that makes the call shows it,
ends before the name of the function does. -/
def InnerCall.invokesPastMemory (c : InnerCall) : Bool :=
  c.invokes precompiled name rest && c.namedPastMemory

/-! ### The key of an operation -/

/-- The bytes at the front of a window are those of the string, as far as the string goes. -/
private theorem Bytes.take_window {bytes : Bytes} {start count length : Nat}
    (hcount : count ≤ length) (hend : start + count ≤ bytes.length) :
    (window bytes start length).take count = (bytes.drop start).take count := by
  have hpresent : count ≤ ((bytes.drop start).take length).length := by
    rw [List.length_take, List.length_drop]
    omega
  rw [window, List.take_append_of_le_length hpresent, List.take_take, Nat.min_eq_left hcount]

/-- The operands of a call give the key of its function when memory holds the name. -/
theorem Selectors.operandKey_of_held {memory : Bytes} {words : List Word} {place : Nat × Nat}
    {callee offset length : Word} (hcallee : words[1]? = some callee)
    (hoffset : words[place.1]? = some offset) (hlength : words[place.2]? = some length)
    (hcontract : precompiled callee.toAddress = false) (hlong : width ≤ length.toNat)
    (hfits : length.toNat < UInt64.size) (hheld : offset.toNat + width ≤ memory.length)
    (hmemory : memory.length < UInt64.size) :
    operandKey precompiled memory words place =
      .ok (some (key ((memory.drop offset.toNat).take width) (length.toNat - width))) := by
  have hwidth : (BitVec.ofNat 256 width).toNat = width := rfl
  have hslice : Operand.slice memory offset (BitVec.ofNat 256 width) =
      .ok ((memory.drop offset.toNat).take width) :=
    Operand.slice_of_inside hmemory (.inr (by rwa [hwidth]))
  have hpeek {index : Nat} {word : Word} (h : words[index]? = some word) :
      Operand.peek words index = .ok word := Operand.peek_eq_ok_iff.mpr h
  have hsize : Operand.size length = .ok length.toNat := Operand.size_of_fits hfits
  have hshort : ¬length.toNat < width := Nat.not_lt_of_le hlong
  simp only [operandKey, hpeek hcallee, hpeek hoffset, hpeek hlength, ok_bind, hcontract, hsize,
    if_neg hshort, hslice]
  rfl

/-- The operands that an input comes from. -/
private theorem Shown.exists_operands {s : Shown} {input : Bytes} (h : s.input? = some input) :
    ∃ place offset length, Opcode.callInput? s.opcode = some place ∧
      s.stack[place.1]? = some offset ∧ s.stack[place.2]? = some length ∧
      input = Bytes.window s.memory.data.toList offset.toNat length.toNat := by
  obtain ⟨offset, hoffset, hinput⟩ := Option.bind_eq_some_iff.mp h
  obtain ⟨length, hlength, hwindow⟩ := Option.map_eq_some_iff.mp hinput
  obtain ⟨place, hplace, hoffset⟩ := Option.bind_eq_some_iff.mp hoffset
  rw [length?, hplace] at hlength
  exact ⟨place, offset, length, hplace, hoffset, hlength, hwindow.symm⟩

/-- An operation that makes a call is counted under the function of the call, if memory holds its
name. -/
private theorem Shown.key?_of_opens {s : Shown} {c : InnerCall} (h : s.Opens c)
    (hholds : s.holdsName = true) (hinvokes : c.invokes precompiled name rest = true) :
    s.key? precompiled = some (Selectors.key name rest) := by
  rw [InnerCall.invokes, InnerCall.account_of_opens h] at hinvokes
  simp only [Selectors.invokes, Bool.and_eq_true, decide_eq_true_eq, Option.any_some] at hinvokes
  obtain ⟨⟨⟨_, hcontract⟩, hname⟩, hlength⟩ := hinvokes
  obtain ⟨place, offset, length, hplace, hoffset, hcount, hinput⟩ := exists_operands h.input
  obtain ⟨callee, hcallee, haddress⟩ := Option.map_eq_some_iff.mp h.code
  have hmemory : s.memory.data.toList.length = s.memory.size := Array.length_toList
  have hpassed : c.input.length = length.toNat := by rw [hinput, Bytes.length_window]
  have hheld : offset.toNat + Selectors.width ≤ s.memory.data.toList.length := by
    simp only [holdsName, offset?, hplace, Option.bind_some, hoffset, Option.any_some,
      decide_eq_true_eq] at hholds
    rwa [hmemory]
  have hlong : Selectors.width ≤ length.toNat := by omega
  have hnamed : (s.memory.data.toList.drop offset.toNat).take Selectors.width = name := by
    rw [← Bytes.take_window hlong hheld, ← hinput, hname]
  have hrest : length.toNat - Selectors.width = rest := by omega
  have hkey := Selectors.operandKey_of_held precompiled hcallee hoffset hcount
    (by simpa [haddress] using hcontract) hlong (hpassed ▸ h.input_fits) hheld
    (hmemory ▸ h.memory_fits)
  rw [key?, hplace, Option.bind_some, hkey, hnamed, hrest]
  rfl

/-! ### The calls and the histogram -/

/-- A call adds at most one to the calls: the operation before it is counted, or its function is
named past memory. -/
private theorem countP_innerCall_le (opening : Opening) (shown : Option Shown)
    (h : ∀ c ∈ opening.innerCall? shown, c.Opened) :
    (opening.innerCall? shown).toList.countP (InnerCall.invokes precompiled name rest) ≤
      (shown.bind (Shown.key? precompiled)).toList.count (Selectors.key name rest) +
        (opening.innerCall? shown).toList.countP
          (InnerCall.invokesPastMemory precompiled name rest) := by
  cases hcall : opening.innerCall? shown with
  | none => exact Nat.zero_le _
  | some c =>
    have hshown : c.shown = shown := by
      cases opening <;> cases hcall
      rfl
    obtain ⟨s, hs, hopens⟩ := h c hcall
    rw [Option.toList_some, List.countP_singleton, List.countP_singleton, ← hshown, hs]
    cases hinvokes : c.invokes precompiled name rest with
    | false => exact Nat.zero_le _
    | true =>
      cases hholds : s.holdsName with
      | false => simp [InnerCall.invokesPastMemory, InnerCall.namedPastMemory, hs, hholds, hinvokes]
      | true => simp [Shown.key?_of_opens precompiled name rest hopens hholds hinvokes]

/-- Of the calls among hooks that invoke a function, all are counted under its key, or have it named
past memory. The operation shown before the hooks may be counted too. -/
private theorem HookBody.countP_calls_le (body : HookBody) (shown : Option Shown)
    (h : ∀ c ∈ body.calls shown, c.Opened) :
    (body.calls shown).countP (InnerCall.invokes precompiled name rest) ≤
      (shown.bind (Shown.key? precompiled)).toList.count (Selectors.key name rest) +
        (body.hooks.filterMap (Hook.key? precompiled)).count (Selectors.key name rest) +
        (body.calls shown).countP (InnerCall.invokesPastMemory precompiled name rest) := by
  induction body generalizing shown with
  | done => exact Nat.zero_le _
  | step opcode pc stack memory target tail ih =>
    have htail := ih (some ⟨opcode, stack, memory⟩) h
    have hkey : (Hook.step opcode pc stack memory target).key? precompiled =
        Shown.key? precompiled ⟨opcode, stack, memory⟩ := rfl
    rw [hooks, Hook.filterMap_key?_cons, hkey, List.count_append, calls]
    rw [Option.bind_some] at htail
    omega
  | log entry tail ih =>
    have htail := ih none h
    rw [hooks, List.filterMap_cons_none rfl, calls]
    simp only [Option.bind_none, Option.toList_none, List.count_nil] at htail
    omega
  | selfDestruct contract beneficiary value tail ih =>
    have htail := ih none h
    rw [hooks, List.filterMap_cons_none rfl, calls]
    simp only [Option.bind_none, Option.toList_none, List.count_nil] at htail
    omega
  | action opening inside closing tail ihInside ihTail =>
    have hkeys : (hooks (.action opening inside closing tail)).filterMap (Hook.key? precompiled) =
        inside.hooks.filterMap (Hook.key? precompiled) ++
          tail.hooks.filterMap (Hook.key? precompiled) := by
      have hopening : opening.hook.key? precompiled = none := by cases opening <;> rfl
      rw [hooks, List.filterMap_cons_none hopening, List.filterMap_append,
        List.filterMap_cons_none rfl]
    have hcall := countP_innerCall_le precompiled name rest opening shown fun c hc =>
      h c (List.mem_append_left _ (Option.mem_toList.mpr hc))
    have hinside := ihInside none fun c hc =>
      h c (List.mem_append_right _ (List.mem_append_left _ hc))
    have htail := ihTail none fun c hc =>
      h c (List.mem_append_right _ (List.mem_append_right _ hc))
    rw [hkeys, calls]
    simp only [List.countP_append, List.count_append]
    simp only [Option.bind_none, Option.toList_none, List.count_nil] at hinside htail
    omega

end Invocations

/-- The histogram after a top action and its settlement counts the keys of its operations. -/
private theorem Selectors.counts_of_hooks (slot : Address → Word → Except DbFault Word)
    (r : Recorder) (x : HookAction) (s : Selectors) (o : Settlement) :
    (s.after (r.emitted slot x.hooks ++ [.settled o])).counts =
      (x.body.hooks.filterMap (Hook.key? s.facts.precompiled)).foldl bump s.counts := by
  have hopening : x.opening.hook.key? s.facts.precompiled = none := by cases x.opening <;> rfl
  have hkeys : x.hooks.filterMap (Hook.key? s.facts.precompiled) =
      x.body.hooks.filterMap (Hook.key? s.facts.precompiled) := by
    rw [HookAction.hooks, List.filterMap_cons_none hopening, List.filterMap_append,
      List.filterMap_cons_none rfl, List.filterMap_nil, List.append_nil]
  rw [after_append, counts_after (by simp [Event.isStack]), counts_emitted, hkeys]

/-- Every inner call in the call tree of a recording that invokes a function is in the histogram of
the same recording, under the key of the function, unless memory as the operation that makes the
call shows it ends before the name of the function does. -/
theorem Recording.calls_counted (slot : Address → Word → Except DbFault Word) {r : Recording}
    (hdepth : r.recorder.depth = 0) (hnew : r.latestFirst = []) {x : HookAction}
    (hopened : ∀ c ∈ x.body.calls none, c.Opened) (w : World) (withLog : Bool) (f : TxFacts)
    (o : Settlement) :
    ∃ t top s,
      (Tracer.calls (.start { withLog } f)).run w
          ((r.observeAll slot x.hooks).events ++ [.settled o]) = .ok (.calls t) ∧
        t.output = .ok top ∧
        (Tracer.selectors (.start f)).run w
            ((r.observeAll slot x.hooks).events ++ [.settled o]) = .ok (.selectors s) ∧
        ∀ name rest, (Frame.flatAll top.calls).countP (Frame.invokes f.precompiled name rest) ≤
          Selectors.count s.output (Selectors.key name rest) +
            (x.body.calls none).countP (InnerCall.invokesPastMemory f.precompiled name rest) := by
  have hevents := events_observeAll_of_nil slot hnew x.hooks
  obtain ⟨a, ha, _, _, houtlines⟩ := Recorder.exists_action slot hdepth x
  have hfresh : (Tracer.selectors (.start f)).Fresh := ⟨f, .inr (.inr rfl)⟩
  have hread : (Tracer.selectors (.start f)).CanRead w := trivial
  obtain ⟨after, hafter, _⟩ :=
    Tracer.run_of_protocol hread hfresh.sound (Protocol.run_settled_action a o)
  obtain rfl := Tracer.run_selectors hafter
  generalize hs : (Selectors.start f).after (a.events ++ [.settled o]) = s at hafter
  rw [hevents, ha]
  refine ⟨_, a.tree withLog f o, s, CallTree.run_events w { withLog } rfl f a o,
    CallTree.output_settled withLog f a o, hafter, fun name rest => ?_⟩
  have hcounts : s.counts =
      (x.body.hooks.filterMap (Hook.key? f.precompiled)).foldl Selectors.bump ∅ := by
    have hall := Selectors.counts_of_hooks slot r.recorder x (.start f) o
    rwa [ha, hs] at hall
  have hoperations : Selectors.count s.counts (Selectors.key name rest) =
      (x.body.hooks.filterMap (Hook.key? f.precompiled)).count (Selectors.key name rest) := by
    rw [hcounts, Selectors.count_foldl_bump, Selectors.count_empty, Nat.zero_add]
  have htree : Frame.outlines (a.tree withLog f o).calls = x.body.outlines := houtlines _
  have hframes := x.body.countP_flatAll_outlines f.precompiled name rest none
  rw [← htree, Outline.countP_flatAll_outlines] at hframes
  have hcalls := x.body.countP_calls_le f.precompiled name rest none hopened
  have houtput := Selectors.count_output s (Selectors.key name rest)
  simp only [Option.bind_none, Option.toList_none, List.count_nil] at hcalls
  omega

/-- A call whose input goes on past memory, with a call of a precompiled contract inside. -/
private def transferHooks : HookAction where
  opening := .call .call 1 2 2 0 90000 []
  body :=
    .step 0xf1 40 [50000, 0xbeef, 0, 0, 36, 0, 0]
      ⟨⟨[0xa9, 0x05, 0x9c, 0xbb] ++ List.replicate 28 0⟩⟩ 2 <|
    .action (.call .call 2 0xbeef 0xbeef 0 50000 ([0xa9, 0x05, 0x9c, 0xbb] ++ List.replicate 32 0))
      (.step 0xfa 7 [100, 4, 0, 32, 0, 0] ⟨⟨List.replicate 32 1⟩⟩ 0xbeef <|
        .action (.call .staticCall 0xbeef 4 4 0 100 (List.replicate 32 1)) .done
          ⟨.returned, 82, [], none⟩ .done)
      ⟨.returned, 30000, [], none⟩ .done
  closing := ⟨.stop, 40000, [], none⟩

private theorem opened_transferHooks : ∀ c ∈ transferHooks.body.calls none, c.Opened := by
  intro c hc
  rcases List.mem_cons.mp hc with rfl | hc
  · exact ⟨_, rfl, rfl, rfl, fun _ => rfl, by decide, by decide⟩
  · rw [List.mem_singleton.mp hc]
    exact ⟨_, rfl, rfl, rfl, fun _ => rfl, by decide, by decide⟩

theorem Recording.transfer_counted :
    ∃ t top s,
      (Tracer.calls (.start {} {})).run .blank
          ((Recording.observeAll (fun _ _ => .ok 0) {} transferHooks.hooks).events ++
            [.settled ⟨true, 50000, [], [], none⟩]) = .ok (.calls t) ∧
        t.output = .ok top ∧
        (Tracer.selectors (.start {})).run .blank
          ((Recording.observeAll (fun _ _ => .ok 0) {} transferHooks.hooks).events ++
            [.settled ⟨true, 50000, [], [], none⟩]) = .ok (.selectors s) ∧
        (Frame.flatAll top.calls).countP
          (Frame.invokes Hardfork.prague.isPrecompile [0xa9, 0x05, 0x9c, 0xbb] 32) = 1 ∧
        1 ≤ Selectors.count s.output (Selectors.key [0xa9, 0x05, 0x9c, 0xbb] 32) := by
  obtain ⟨t, top, s, hcalls, htop, hselectors, hcounted⟩ :=
    Recording.calls_counted (fun _ _ => .ok 0) (r := {}) rfl rfl opened_transferHooks .blank
      false {} ⟨true, 50000, [], [], none⟩
  have hone : (Frame.flatAll top.calls).countP
      (Frame.invokes Hardfork.prague.isPrecompile [0xa9, 0x05, 0x9c, 0xbb] 32) = 1 := by
    cases hcalls
    cases htop
    rfl
  refine ⟨t, top, s, hcalls, htop, hselectors, hone, ?_⟩
  have hle := hcounted [0xa9, 0x05, 0x9c, 0xbb] 32
  have hprecompiled : ({} : TxFacts).precompiled = Hardfork.prague.isPrecompile := rfl
  have hnone : (transferHooks.body.calls none).countP
      (InnerCall.invokesPastMemory Hardfork.prague.isPrecompile [0xa9, 0x05, 0x9c, 0xbb] 32) = 0 :=
    rfl
  rwa [hprecompiled, hone, hnone] at hle

/-- The first call of a contract with memory empty still: the machine passes zeros. -/
private def zerosHooks : HookAction where
  opening := .call .call 1 2 2 0 90000 []
  body :=
    .step 0xf1 14 [0xffff, 0xbeef, 0, 0, 4, 0, 0] ByteArray.empty 2 <|
    .action (.call .call 2 0xbeef 0xbeef 0 50000 [0, 0, 0, 0]) .done
      ⟨.stop, 50000, [], none⟩ .done
  closing := ⟨.stop, 80000, [], none⟩

/-- A call whose function is named past memory is in the call tree and not in the histogram. -/
theorem Recording.zeros_not_counted :
    (∀ c ∈ zerosHooks.body.calls none, c.Opened) ∧
      ∃ t top s,
        (Tracer.calls (.start {} {})).run .blank
            ((Recording.observeAll (fun _ _ => .ok 0) {} zerosHooks.hooks).events ++
              [.settled ⟨true, 10000, [], [], none⟩]) = .ok (.calls t) ∧
          t.output = .ok top ∧
          (Tracer.selectors (.start {})).run .blank
            ((Recording.observeAll (fun _ _ => .ok 0) {} zerosHooks.hooks).events ++
              [.settled ⟨true, 10000, [], [], none⟩]) = .ok (.selectors s) ∧
          (Frame.flatAll top.calls).countP
            (Frame.invokes Hardfork.prague.isPrecompile [0, 0, 0, 0] 0) = 1 ∧
          Selectors.count s.output (Selectors.key [0, 0, 0, 0] 0) = 0 := by
  refine ⟨?_, _, _, _, rfl, rfl, rfl, rfl, rfl⟩
  intro c hc
  rw [List.mem_singleton.mp hc]
  exact ⟨_, rfl, rfl, rfl, fun _ => rfl, by decide, by decide⟩

end ExecutionTrace
