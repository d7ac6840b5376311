import ExecutionTrace.Proofs.Nesting.Moves
import ExecutionTrace.Proofs.Stepping

/-! What every frame of a call tree has in common, whatever the events it came from. A frame is
written when its action is entered and when it ends, and the top frame once more by the settlement,
which overwrites all that an ending says. -/
namespace ExecutionTrace

namespace Frame

inductive Within : Frame → Frame → Prop
  | self (f : Frame) : Within f f
  | call {f inner outer : Frame} : inner ∈ outer.calls → Within f inner → Within f outer

def Throughout (P : Frame → Prop) (top : Frame) : Prop := ∀ f, f.Within top → P f

theorem throughout_iff {P : Frame → Prop} {top : Frame} :
    top.Throughout P ↔ P top ∧ ∀ call ∈ top.calls, call.Throughout P := by
  constructor
  · intro h
    exact ⟨h top (.self top), fun call hcall f hf => h f (.call hcall hf)⟩
  · intro ⟨htop, hcalls⟩ f hf
    cases hf with
    | self => exact htop
    | call hcall hinner => exact hcalls _ hcall f hinner

/-- What a frame says of its action from its entry on, as far as the settings let it. -/
structure Fits (config : CallTree.Config) (f : Frame) : Prop where
  value : f.value = none ↔ f.kind = .staticCall
  logs : config.withLog = false → f.logs = []
  calls : config.onlyTopCall = true → f.calls = []

/-- What a reader of a frame may take for granted under the settings. -/
structure WellFormed (config : CallTree.Config) (f : Frame) : Prop extends f.Fits config where
  gasUsed : f.gasUsed ≤ f.gas
  revertReason : f.revertReason = if f.failed then RevertReason.decode f.output else none
  output : ∀ text, f.error = some text → text ≠ "execution reverted" → f.output = []
  target : f.failed → f.kind = .create ∨ f.kind = .create2 → f.target = none

variable {config : CallTree.Config} {f : Frame}

private theorem wellFormed_start (kind : ActionKind) (sender : Address) (target : Option Address)
    (value : Word) (gas : UInt64) (input : Bytes) :
    (start kind sender target value gas input).WellFormed config where
  value := by cases kind <;> simp [start, ActionKind.carriesValue]
  logs _ := rfl
  calls _ := rfl
  gasUsed := Nat.zero_le _
  revertReason := rfl
  output _ herror := by cases herror
  target hfailed := by cases hfailed

private theorem throughout_start (kind : ActionKind) (sender : Address) (target : Option Address)
    (value : Word) (gas : UInt64) (input : Bytes) :
    (start kind sender target value gas input).Throughout (WellFormed config) :=
  throughout_iff.mpr ⟨wellFormed_start .., List.forall_mem_nil _⟩

private theorem isCreate_iff (kind : ActionKind) :
    kind.isCreate ↔ kind = .create ∨ kind = .create2 := by
  cases kind <;> decide

/-- A failure is all that is said of how a frame ended but for its gas. -/
private theorem wellFormed_withFailure (h : f.Fits config) (hgas : f.gasUsed ≤ f.gas)
    (failure : Failure) (output : Bytes) : (f.withFailure failure output).WellFormed config where
  value := h.value
  logs := h.logs
  calls := h.calls
  gasUsed := hgas
  revertReason := by
    simp only [withFailure, failed, Option.isSome_some, if_true]
    split <;> rfl
  output text herror htext := by
    obtain rfl := Option.some.inj herror
    have hother : failure.isRevert = false := by
      cases failure <;> first | rfl | exact absurd rfl htext
    simp [withFailure, hother]
  target _ hkind := if_pos ((isCreate_iff f.kind).mpr hkind)

private theorem satSub64_le (a b : UInt64) : satSub64 a b ≤ a := by
  rw [UInt64.le_iff_toNat_le, toNat_satSub64]
  omega

private theorem wellFormed_withEnding (h : f.WellFormed config) (hrunning : f.error = none)
    (ending : Ending) : (f.withEnding ending).WellFormed config := by
  have hreason : f.revertReason = none := by
    rw [h.revertReason, failed, hrunning]
    rfl
  cases ending with
  | returned gasLeft output created =>
    have hdone : (f.withEnding (.returned gasLeft output created)).error = none := hrunning
    exact
      { value := h.value
        logs := h.logs
        calls := h.calls
        gasUsed := satSub64_le _ _
        revertReason := by
          rw [failed, hdone]
          exact hreason
        output := fun text herror => by rw [hdone] at herror; cases herror
        target := fun hfailed => by rw [failed, hdone] at hfailed; cases hfailed }
  | reverted gasLeft output _ =>
    have hfits : { f with gasUsed := satSub64 f.gas gasLeft }.Fits config :=
      ⟨h.value, h.logs, h.calls⟩
    exact wellFormed_withFailure hfits (satSub64_le _ _) .revert output
  | failed failure _ =>
    have hfits : { f with gasUsed := f.gas }.Fits config := ⟨h.value, h.logs, h.calls⟩
    exact wellFormed_withFailure hfits (Nat.le_refl _) failure []

private theorem wellFormed_settleTop (facts : TxFacts) (h : f.Fits config) :
    (CallTree.settleTop facts f).WellFormed config := by
  have hgas : min facts.gasUsed f.gas ≤ f.gas := Std.min_le_right
  unfold CallTree.settleTop
  cases facts.failure with
  | some failure =>
    have hfits : { f with
        gasUsed := min facts.gasUsed f.gas, error := none, revertReason := none }.Fits config :=
      ⟨h.value, h.logs, h.calls⟩
    exact wellFormed_withFailure hfits hgas failure facts.output
  | none =>
    exact
      { value := h.value
        logs := h.logs
        calls := h.calls
        gasUsed := hgas
        revertReason := rfl
        output := fun _ herror => by cases herror
        target := fun hfailed => by cases hfailed }

private theorem calls_settleTop (facts : TxFacts) (f : Frame) :
    (CallTree.settleTop facts f).calls = f.calls := by
  unfold CallTree.settleTop
  cases facts.failure <;> rfl

/-! ### Pruned logs -/

private theorem pruneAllLogs_eq_map (outerFailed : Bool) (calls : List Frame) :
    pruneAllLogs outerFailed calls = calls.map (pruneLogs outerFailed) := by
  induction calls with
  | nil => rfl
  | cons call calls ih => rw [pruneAllLogs, ih, List.map_cons]

theorem pruneLogs_eq (outerFailed : Bool) (f : Frame) :
    f.pruneLogs outerFailed =
      { f with
        calls := f.calls.map (pruneLogs (outerFailed || f.failed))
        logs := if outerFailed || f.failed then [] else f.logs } := by
  rw [← pruneAllLogs_eq_map]
  cases f
  rfl

private theorem wellFormed_pruneLogs (h : f.WellFormed config) (outerFailed : Bool) :
    (f.pruneLogs outerFailed).WellFormed config := by
  rw [pruneLogs_eq]
  exact
    { value := h.value
      logs := fun hconfig => by rw [h.logs hconfig, ite_self]
      calls := fun hconfig => by rw [h.calls hconfig]; rfl
      gasUsed := h.gasUsed
      revertReason := h.revertReason
      output := h.output
      target := h.target }

private theorem within_pruneLogs {outerFailed : Bool} {pruned top : Frame}
    (h : pruned.Within (top.pruneLogs outerFailed)) :
    ∃ (f : Frame) (failed : Bool), f.Within top ∧ pruned = f.pruneLogs failed := by
  generalize htop : top.pruneLogs outerFailed = whole at h
  induction h generalizing top outerFailed with
  | self => exact ⟨top, outerFailed, .self top, htop.symm⟩
  | call hinner _ ih =>
    rw [← htop, pruneLogs_eq] at hinner
    obtain ⟨call, hcall, heq⟩ := List.mem_map.mp hinner
    obtain ⟨f, failed, hf, hpruned⟩ := ih heq
    exact ⟨f, failed, .call hcall hf, hpruned⟩

private theorem throughout_pruneLogs (h : f.Throughout (WellFormed config)) (outerFailed : Bool) :
    (f.pruneLogs outerFailed).Throughout (WellFormed config) := by
  intro pruned hpruned
  obtain ⟨whole, failed, hwhole, rfl⟩ := within_pruneLogs hpruned
  exact wellFormed_pruneLogs (h whole hwhole) failed

end Frame

namespace CallTree

/-- An open frame is well-formed with all frames inside, and no failure is known of it yet. -/
structure Running (config : Config) (f : Frame) : Prop where
  throughout : f.Throughout (Frame.WellFormed config)
  error : f.error = none

/-- The invariant of a tree that takes in events. -/
structure Regular (t : CallTree) : Prop where
  topOnly : t.stack.topOnly = t.config.onlyTopCall
  sound : t.stack.Sound
  frames : t.stack.Holds (Running t.config) (Frame.Throughout (Frame.WellFormed t.config))

private theorem regular_start (config : Config) (facts : TxFacts) : (start config facts).Regular :=
  ⟨rfl, Nesting.sound_start _, Nesting.holds_start _⟩

/-! ### One event -/

variable {config : Config} {f : Frame}

private theorem running_ofEntry (e : Entry) : Running config (.ofEntry e) :=
  ⟨Frame.throughout_start _ _ _ _ _ _, rfl⟩

private theorem throughout_withEnding (h : Running config f) (ending : Ending) :
    (f.withEnding ending).Throughout (Frame.WellFormed config) := by
  obtain ⟨hf, hcalls⟩ := Frame.throughout_iff.mp h.throughout
  refine Frame.throughout_iff.mpr ⟨Frame.wellFormed_withEnding hf h.error ending, ?_⟩
  cases ending <;> exact hcalls

private theorem running_adopt (hconfig : config.onlyTopCall = false) {parent child : Frame}
    (hparent : Running config parent) (hchild : child.Throughout (Frame.WellFormed config)) :
    Running config (Adopts.adopt parent child) := by
  obtain ⟨hp, hcalls⟩ := Frame.throughout_iff.mp hparent.throughout
  have hadopted : (Adopts.adopt parent child).WellFormed config :=
    { hp with calls := fun htop => by rw [hconfig] at htop; cases htop }
  refine ⟨Frame.throughout_iff.mpr ⟨hadopted, ?_⟩, hparent.error⟩
  exact List.forall_mem_append.mpr ⟨hcalls, List.forall_mem_singleton.mpr hchild⟩

private theorem running_withLog (hconfig : config.withLog = true) (h : Running config f)
    (l : LogEntry) : Running config (f.withLog l) := by
  obtain ⟨hf, hcalls⟩ := Frame.throughout_iff.mp h.throughout
  have hlogged : (f.withLog l).WellFormed config :=
    { hf with logs := fun hnone => by rw [hconfig] at hnone; cases hnone }
  exact ⟨Frame.throughout_iff.mpr ⟨hlogged, hcalls⟩, h.error⟩

@[simp] theorem config_step (t : CallTree) (e : Event) : (t.step e).1.config = t.config := by
  cases e <;> simp only [step] <;> split <;> rfl

private theorem holds_step {t : CallTree} (h : t.Regular) (e : Event) :
    (t.step e).1.stack.Holds (Running t.config) (Frame.Throughout (Frame.WellFormed t.config)) := by
  cases e with
  | entered e =>
    simp only [step]
    split
    · next he => exact h.frames.enter (running_ofEntry e) he
    · next he =>
      rw [Nesting.enter_refused he]
      exact h.frames
  | ended ending =>
    simp only [step]
    split
    · next hc =>
      rw [Nesting.close_refused hc]
      exact h.frames
    · next hc =>
      refine h.frames.close h.sound (fun _ hf => throughout_withEnding hf ending) ?_ hc
      -- a tree that keeps the top frame alone never comes to adopt one
      intro hall parent child hparent hchild
      exact running_adopt (h.topOnly.symm.trans hall) hparent hchild
  | log l =>
    simp only [step]
    split
    · next hlog => exact h.frames.modifyCurrent fun _ hf => running_withLog hlog hf l
    · exact h.frames
  | settled o =>
    simp only [step]
    split <;> exact h.frames
  | _ => exact h.frames

theorem regular_step {t : CallTree} (h : t.Regular) (e : Event) : (t.step e).1.Regular := by
  have hmoves := t.moves_step e
  have hholds := holds_step h e
  rw [← config_step t e] at hholds
  refine ⟨?_, hmoves.sound h.sound, hholds⟩
  rw [hmoves.topOnly, h.topOnly, config_step]

private theorem settled_step {t : CallTree} (h : t.facts.settled = true) (e : Event) :
    (t.step e).1.facts.settled = true := by
  cases e with
  | entered e =>
    have htop : (if e.depth = 0 then t.facts.withTopEntry e else t.facts).settled = true := by
      split <;> exact h
    simp only [step]
    split <;> exact htop
  | ended ending =>
    simp only [step]
    split
    · exact h
    · dsimp only
      split
      · split <;> exact h
      · exact h
  | log l =>
    simp only [step]
    split <;> exact h
  | settled o =>
    simp only [step]
    split
    · exact h
    · rfl
  | _ => exact h

private theorem settled_of_accepted {t : CallTree} {o : Settlement}
    (h : (t.step (.settled o)).2 = .ok ()) : (t.step (.settled o)).1.facts.settled = true := by
  simp only [step] at h ⊢
  split at h
  · cases h
  · next hclosed =>
    rw [if_neg hclosed]
    rfl

/-! ### The tree reported -/

/-- The settlement leaves nothing of what the top frame said but what no ending changes, so the
frame may come from an ending, from the facts alone, or with a gas limit that is not its own. -/
private theorem throughout_settleTop {top : Frame} (h : top.Fits config)
    (hcalls : ∀ call ∈ top.calls, call.Throughout (Frame.WellFormed config)) (facts : TxFacts) :
    (settleTop facts top).Throughout (Frame.WellFormed config) := by
  refine Frame.throughout_iff.mpr ⟨Frame.wellFormed_settleTop facts h, ?_⟩
  rwa [Frame.calls_settleTop]

theorem throughout_output {t : CallTree} (h : t.Regular) (hsettled : t.facts.settled = true)
    {top : Frame} (houtput : t.output = .ok top) :
    top.Throughout (Frame.WellFormed t.config) := by
  have hroot : (t.stack.root.getD (bareTop t.facts)).Throughout (Frame.WellFormed t.config) := by
    cases hr : t.stack.root with
    | none => exact Frame.throughout_start _ _ _ _ _ _
    | some root => exact h.frames.root root hr
  obtain ⟨hroot, hcalls⟩ := Frame.throughout_iff.mp hroot
  rw [output] at houtput
  by_cases hopened : t.stack.opened ≠ 0
  · rw [if_pos hopened] at houtput
    cases houtput
  · rw [if_neg hopened] at houtput
    simp only [hsettled, if_true] at houtput
    generalize t.stack.root.getD (bareTop t.facts) = root at hroot hcalls houtput
    have hlimited : (if 0 < t.facts.gasLimit then { root with gas := t.facts.gasLimit }
        else root).Fits t.config := by
      split
      · exact ⟨hroot.value, hroot.logs, hroot.calls⟩
      · exact hroot.toFits
    have htop := throughout_settleTop hlimited (by split <;> exact hcalls) t.facts
    cases houtput
    split
    · exact Frame.throughout_pruneLogs htop false
    · exact htop

/-- Whatever is known of a transaction beforehand and whatever events come, in whatever order and
whether they are accepted or not: once a settlement is accepted, all frames of the tree reported
are well-formed. -/
theorem wellFormed_output (config : Config) (facts : TxFacts) (events : List Event)
    {o : Settlement} {top : Frame}
    (hsettled : .settled o ∈ Stepping.accepted step (start config facts) events)
    (houtput : (Stepping.after step (start config facts) events).output = .ok top) :
    ∀ f : Frame, f.Within top → f.WellFormed config := by
  have hconfig : (Stepping.after step (start config facts) events).config = config :=
    Stepping.invariant (P := fun t => t.config = config)
      (fun t e h => (config_step t e).trans h) rfl events
  have hregular : (Stepping.after step (start config facts) events).Regular :=
    Stepping.invariant (P := Regular) (fun _ e h => regular_step h e) (regular_start config facts)
      events
  have hknown : (Stepping.after step (start config facts) events).facts.settled = true :=
    Stepping.of_mem_accepted (P := fun t => t.facts.settled = true)
      (fun _ e h => settled_step h e) (fun _ h => settled_of_accepted h) hsettled
  have hthroughout := throughout_output hregular hknown houtput
  rwa [hconfig] at hthroughout

private def creation : Entry :=
  { depth := 0, kind := .create, sender := 1, target := none, value := 5, gas := 100, input := []
    salt := none }

private def reading : Entry :=
  { depth := 1, kind := .staticCall, sender := 7, target := some 2, value := 0, gas := 50
    input := [], salt := none }

private def exhausted : Settlement := ⟨false, 900, [1], [], some .outOfGas⟩

/-- A creation that calls, with an ending, a log and a settlement out of place, an action entered
too deep, more gas left than there was, and a second top action. -/
private def stray : List Event :=
  [.ended (.failed .outOfGas none), .log ⟨7, [], []⟩, .entered creation,
    .entered { reading with depth := 3 }, .entered reading, .settled exhausted,
    .ended (.reverted 60 [1, 2] none), .log ⟨7, [], [1]⟩, .ended (.returned 10 [3] (some 7)),
    .entered creation, .settled exhausted]

theorem wellFormed_output_of_stray :
    .settled exhausted ∈ Stepping.accepted step (start { withLog := true } {}) stray ∧
      ∃ top, (Stepping.after step (start { withLog := true } {}) stray).output = .ok top ∧
        top.count = 2 ∧ ∀ f : Frame, f.Within top → f.WellFormed { withLog := true } := by
  have hsettled : .settled exhausted ∈
      Stepping.accepted step (start { withLog := true } {}) stray := by decide
  exact ⟨hsettled, _, rfl, rfl, wellFormed_output { withLog := true } {} stray hsettled rfl⟩

end CallTree
end ExecutionTrace
