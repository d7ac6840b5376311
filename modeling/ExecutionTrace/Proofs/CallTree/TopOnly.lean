import ExecutionTrace.Proofs.CallTree.Report
import ExecutionTrace.Proofs.Protocol

/-! Call trees that keep the top frame only. Such a tree goes through the same states as the whole
one, each cut down to its top frame, whatever the events. What is lost with the frames inside is how
many of them there were when a log was written. -/
namespace ExecutionTrace

namespace Frame

/-- The frame without the frames inside it, with its logs placed as if there had been none. -/
def alone (f : Frame) : Frame :=
  { f with calls := [], logs := f.logs.map fun log => { log with position := 0 } }

@[simp] theorem alone_ofEntry (e : Entry) : (ofEntry e).alone = ofEntry e := rfl

@[simp] theorem alone_bareTop (f : TxFacts) : (CallTree.bareTop f).alone = CallTree.bareTop f := rfl

@[simp] theorem alone_adopt (parent child : Frame) :
    (Adopts.adopt parent child).alone = parent.alone := rfl

private theorem alone_withEnding (f : Frame) (ending : Ending) :
    (f.withEnding ending).alone = f.alone.withEnding ending := by
  cases ending <;> rfl

private theorem alone_withLog (f : Frame) (l : LogEntry) :
    (f.withLog l).alone = f.alone.withLog l := by
  simp [withLog, alone]

private theorem alone_pruneLogs (f : Frame) :
    (f.pruneLogs false).alone = f.alone.pruneLogs false := by
  rcases f with ⟨_, _, _, _, _, _, _, error, _, _, _, _⟩
  cases error <;> rfl

private theorem alone_settleTop (f : TxFacts) (top : Frame) :
    (CallTree.settleTop f top).alone = CallTree.settleTop f top.alone := by
  unfold CallTree.settleTop
  cases f.failure <;> rfl

/-- To cut a frame down is no more than to drop the frames inside it exactly if no log of it comes
after one of them. -/
private theorem alone_eq_iff (f : Frame) :
    f.alone = { f with calls := [] } ↔ ∀ log ∈ f.logs, log.position = 0 := by
  have hlogs : f.alone = { f with calls := [] } ↔
      f.logs.map (fun log => { log with position := 0 }) = f.logs.map id := by
    rw [List.map_id]
    constructor
    · intro h
      exact congrArg Frame.logs h
    · intro h
      rw [alone, h]
  rw [hlogs, List.map_inj_left]
  refine forall₂_congr fun log _ => ?_
  constructor
  · intro h
    exact (congrArg FrameLog.position h).symm
  · intro h
    rw [← h]
    rfl

end Frame

namespace Nesting

def cut (s : Nesting Frame) : Nesting Frame :=
  { frames := (s.frames.getLast?.map Frame.alone).toList
    opened := s.opened
    topOnly := true
    root := s.root.map Frame.alone }

private theorem cut_enter {s : Nesting Frame} (h : s.Whole) (depth : Nat) (e : Entry) :
    s.cut.enter depth (.ofEntry e) = ((s.enter depth (.ofEntry e)).1.cut,
      (s.enter depth (.ofEntry e)).2.map fun _ => decide (depth = 0)) := by
  have hroot : s.cut.root.isSome = s.root.isSome := Option.isSome_map
  unfold enter
  rw [show s.cut.opened = s.opened from rfl, hroot]
  by_cases hdepth : depth ≠ s.opened
  · rw [if_pos hdepth, if_pos hdepth]
    rfl
  · rw [if_neg hdepth, if_neg hdepth]
    by_cases htop : depth = 0 ∧ s.root.isSome
    · rw [if_pos htop, if_pos htop]
      rfl
    · rw [if_neg htop, if_neg htop]
      have hkept : s.keeps depth = true := by simp [keeps, h.all]
      have hlength : s.frames.length = depth := by rw [h.length, ← Decidable.not_not.mp hdepth]
      rw [hkept]
      cases hf : s.frames with
      | nil =>
        obtain rfl : depth = 0 := by rw [← hlength, hf]; rfl
        simp [Except.map, cut, keeps, hf]
      | cons frame rest =>
        have hinner : depth ≠ 0 := by rw [← hlength, hf]; exact Nat.succ_ne_zero _
        simp [Except.map, cut, keeps, hf, hinner]

private theorem cut_close {s : Nesting Frame} (h : s.Whole) {f : Frame → Frame}
    (hf : ∀ frame, (f frame).alone = f frame.alone) :
    s.cut.close f = ((s.close f).1.cut, (s.close f).2) := by
  by_cases hopened : s.opened = 0
  · rw [close_of_opened_zero hopened, close_of_opened_zero (s := s.cut) hopened]
  · obtain ⟨after, hc⟩ := close_of_opened_pos hopened f
    rw [hc]
    obtain ⟨frame, hframes, hone, rfl⟩ | ⟨frame, parent, rest, hframes, hmany, rfl⟩ :=
      close_of_whole h hc
    · -- the top action ends, and its frame is the one kept
      simp [close, exit, cut, hframes, hone, Except.map, hf]
    · -- an inner action ends: its frame is not there, and the one around it is no other than before
      have hlast : ((Adopts.adopt parent (f frame) :: rest).getLast?.map Frame.alone).toList =
          (s.frames.getLast?.map Frame.alone).toList := by
        rw [hframes]
        cases rest <;> simp
      have hkept : (s.frames.getLast?.map Frame.alone).toList.length ≤ s.opened - 1 := by
        rw [hmany]
        cases s.frames.getLast? <;> simp
      simp [close, exit, cut, hopened, Except.map, hkept, hlast]

private theorem cut_modifyCurrent {s : Nesting Frame} (h : s.Whole) {f : Frame → Frame}
    (hf : ∀ frame, (f frame).alone = f frame.alone) :
    s.cut.modifyCurrent f = (s.modifyCurrent f).cut := by
  have hlength := h.length
  unfold modifyCurrent isTracking
  rcases hframes : s.frames with _ | ⟨frame, _ | ⟨parent, rest⟩⟩
  · have hnone : s.opened = 0 := by rw [← hlength, hframes]; rfl
    simp [cut, hframes, hnone]
  · have hone : s.opened = 1 := by rw [← hlength, hframes]; rfl
    simp [cut, hframes, hone, hf]
  · have hmany : s.opened = rest.length + 2 := by rw [← hlength, hframes]; rfl
    obtain ⟨last, hlast⟩ : ∃ last, (parent :: rest).getLast? = some last :=
      ⟨_, List.getLast?_eq_some_getLast (List.cons_ne_nil _ _)⟩
    simp [cut, hframes, hmany, hlast]

end Nesting

namespace CallTree

def cut (t : CallTree) : CallTree :=
  { config := { t.config with onlyTopCall := true }, facts := t.facts, stack := t.stack.cut }

private theorem cut_start (withLog : Bool) (f : TxFacts) :
    (start { withLog } f).cut = start { onlyTopCall := true, withLog } f := rfl

/-- An event does to a tree that keeps the top frame what it does to the whole one, and gets the
same answer. -/
theorem cut_step {t : CallTree} (h : t.stack.Whole) (e : Event) :
    t.cut.step e = ((t.step e).1.cut, (t.step e).2) := by
  cases e with
  | entered e =>
    simp only [step, show t.cut.stack = t.stack.cut from rfl, Nesting.cut_enter h]
    rcases t.stack.enter e.depth (.ofEntry e) with ⟨stack, v | kept⟩ <;> rfl
  | ended ending =>
    simp only [step, show t.cut.stack = t.stack.cut from rfl,
      Nesting.cut_close h fun frame => Frame.alone_withEnding frame ending]
    rcases t.stack.close (·.withEnding ending) with ⟨stack, v | _⟩ <;> rfl
  | log l =>
    simp only [step, show t.cut.stack = t.stack.cut from rfl,
      show t.cut.config.withLog = t.config.withLog from rfl,
      Nesting.cut_modifyCurrent h fun frame => Frame.alone_withLog frame l]
    cases t.config.withLog <;> rfl
  | settled o =>
    simp only [step, show t.cut.stack = t.stack.cut from rfl,
      show t.stack.cut.opened = t.stack.opened from rfl]
    split <;> rfl
  | _ => rfl

/-- Events that the whole tree accepts, in whatever order they come, lead the tree that keeps the
top frame through the same states, cut down. -/
theorem cut_run {w : World} {t after : CallTree} (h : t.stack.Whole) {events : List Event}
    (hrun : (Tracer.calls t).run w events = .ok (.calls after)) :
    (Tracer.calls t.cut).run w events = .ok (.calls after.cut) := by
  induction events generalizing t with
  | nil => cases hrun; rfl
  | cons e rest ih =>
    obtain ⟨haccepted, hrest⟩ := Tracer.run_cons hrun
    have hstep : (Tracer.calls t.cut).step w e = (.calls (t.step e).1.cut, (t.step e).2) := by
      rw [Tracer.step, cut_step h]
    rw [Tracer.run, hstep, show (t.step e).2 = .ok () from haccepted]
    exact ih ((t.moves_step e).whole h) hrest

theorem cut_output (t : CallTree) : t.cut.output = t.output.map Frame.alone := by
  unfold output
  rw [show t.cut.stack.opened = t.stack.opened from rfl]
  by_cases hopened : t.stack.opened ≠ 0
  · rw [if_pos hopened, if_pos hopened]
    rfl
  · have hroot : t.cut.stack.root.getD (bareTop t.facts) =
        (t.stack.root.getD (bareTop t.facts)).alone := by
      cases hr : t.stack.root <;> simp [cut, Nesting.cut, hr]
    rw [if_neg hopened, if_neg hopened, show t.cut.facts = t.facts from rfl,
      show t.cut.config.withLog = t.config.withLog from rfl, hroot]
    generalize t.stack.root.getD (bareTop t.facts) = top
    dsimp only [Except.map]
    have hgas : (if 0 < t.facts.gasLimit then { top.alone with gas := t.facts.gasLimit }
        else top.alone) =
        (if 0 < t.facts.gasLimit then { top with gas := t.facts.gasLimit } else top).alone := by
      split <;> rfl
    rw [hgas]
    generalize (if 0 < t.facts.gasLimit then { top with gas := t.facts.gasLimit } else top) = top
    congr 1
    split <;> split <;> simp only [Frame.alone_pruneLogs, Frame.alone_settleTop]

private theorem run_cut_events (w : World) (withLog : Bool) (f : TxFacts) (a : Action)
    (o : Settlement) : ∃ whole only,
      (Tracer.calls (.start { withLog } f)).run w (a.events ++ [.settled o]) =
          .ok (.calls whole) ∧
        whole.output = .ok (a.tree withLog f o) ∧
        (Tracer.calls (.start { onlyTopCall := true, withLog } f)).run w
          (a.events ++ [.settled o]) = .ok (.calls only) ∧
        only.output = .ok (a.tree withLog f o).alone := by
  have hrun := run_events w { withLog } rfl f a o
  have hcut := cut_run Nesting.Whole.start hrun
  rw [cut_start] at hcut
  have houtput := output_settled withLog f a o
  refine ⟨_, _, hrun, houtput, hcut, ?_⟩
  rw [cut_output, houtput]
  rfl

/-- With the top frame alone kept, the tree of an action is the whole one without the frames inside
the top frame, but for the positions of its logs: they are all zero. So it is the whole tree without
those frames exactly if no log of the top frame was written after an action inside. -/
theorem topOnly_output (w : World) (withLog : Bool) (f : TxFacts) (a : Action) (o : Settlement) :
    ∃ whole top only,
      (Tracer.calls (.start { withLog } f)).run w (a.events ++ [.settled o]) =
          .ok (.calls whole) ∧
        whole.output = .ok top ∧
        (Tracer.calls (.start { onlyTopCall := true, withLog } f)).run w
          (a.events ++ [.settled o]) = .ok (.calls only) ∧
        only.output = .ok top.alone ∧
        (only.output = .ok { top with calls := [] } ↔ ∀ log ∈ top.logs, log.position = 0) := by
  obtain ⟨whole, only, hwhole, htop, honly, halone⟩ := run_cut_events w withLog f a o
  refine ⟨whole, _, only, hwhole, htop, honly, halone, ?_⟩
  rw [halone, ← Frame.alone_eq_iff]
  exact ⟨Except.ok.inj, congrArg Except.ok⟩

private def called : Entry :=
  { depth := 0, kind := .call, sender := 1, target := some 2, value := 0, gas := 100, input := []
    salt := none }

private def lateLog : Action where
  entry := called
  body := .action called .done (.returned 90 [] none) <| .log ⟨2, [], [1]⟩ .done
  ending := .returned 50 [] none

/-- The log of the same frame is at position one in the whole tree and at position zero in the tree
of the top frame alone. -/
theorem topOnly_moves_log :
    ∃ whole top only alone,
      (Tracer.calls (.start { withLog := true } {})).run .blank
          (lateLog.events ++ [.settled ⟨true, 50, [], [], none⟩]) = .ok (.calls whole) ∧
        whole.output = .ok top ∧
        (Tracer.calls (.start { onlyTopCall := true, withLog := true } {})).run .blank
          (lateLog.events ++ [.settled ⟨true, 50, [], [], none⟩]) = .ok (.calls only) ∧
        only.output = .ok alone ∧
        top.logs.map (·.position) = [1] ∧ alone.logs.map (·.position) = [0] ∧
        alone ≠ { top with calls := [] } := by
  obtain ⟨whole, only, hwhole, htop, honly, halone⟩ :=
    run_cut_events .blank true {} lateLog ⟨true, 50, [], [], none⟩
  refine ⟨whole, _, only, _, hwhole, htop, honly, halone, rfl, rfl, fun h => ?_⟩
  exact absurd (congrArg (fun top => top.logs.map (·.position)) h) (by decide)

end CallTree
end ExecutionTrace
