import ExecutionTrace.Nesting
import ExecutionTrace.Event

/-! Which entries and endings a nesting of actions accepts. The answer depends on two facts alone,
whatever the frames are and however many of them are kept. -/
namespace ExecutionTrace

/-- What decides whether an event respects the nesting of actions. -/
structure Protocol where
  /-- The number of open actions. -/
  opened : Nat := 0
  /-- Whether a top action has ended. -/
  finished : Bool := false
deriving DecidableEq

namespace Protocol

def enter (s : Protocol) (depth : Nat) : Except Violation Protocol :=
  if depth ≠ s.opened then .error (.entryDepth depth s.opened)
  else if depth = 0 ∧ s.finished then .error .secondTop
  else .ok { s with opened := s.opened + 1 }

def exit (s : Protocol) : Except Violation Protocol :=
  if s.opened = 0 then .error .unmatchedEnding
  else .ok { opened := s.opened - 1, finished := s.finished || s.opened = 1 }

/-- The settlement comes when no action is open, and all other events at any time. -/
def next (s : Protocol) : Event → Except Violation Protocol
  | .entered e => s.enter e.depth
  | .ended _ => s.exit
  | .settled _ => if s.opened = 0 then .ok s else .error (.settledOpen s.opened)
  | _ => .ok s

def run (s : Protocol) : List Event → Except Violation Protocol
  | [] => .ok s
  | e :: rest =>
    match s.next e with
    | .ok s => run s rest
    | .error v => .error v

theorem run_append {s mid : Protocol} {first second : List Event} (h : s.run first = .ok mid) :
    s.run (first ++ second) = mid.run second := by
  induction first generalizing s with
  | nil => cases h; rfl
  | cons e rest ih =>
    simp only [List.cons_append, run] at h ⊢
    cases hn : s.next e with
    | error v => rw [hn] at h; cases h
    | ok after =>
      rw [hn] at h
      exact ih h

end Protocol

namespace Nesting

variable {α : Type}

/-- The part of a nesting that decides what it accepts. -/
def protocol (s : Nesting α) : Protocol := ⟨s.opened, s.root.isSome⟩

/-- One frame is kept for each open action, or only that of the top action. -/
def Sound (s : Nesting α) : Prop :=
  s.frames.length = if s.topOnly then min s.opened 1 else s.opened

theorem sound_start (topOnly : Bool) : (start topOnly : Nesting α).Sound := by
  cases topOnly <;> rfl

theorem cases_of_enter {s after : Nesting α} {depth : Nat} {frame : α} {kept : Bool}
    (h : s.enter depth frame = (after, .ok kept)) :
    depth = s.opened ∧ ¬(depth = 0 ∧ s.root.isSome) ∧
      after = { s with
        opened := s.opened + 1
        frames := if s.keeps depth then frame :: s.frames else s.frames } := by
  unfold enter at h
  split at h
  · cases h
  · next hdepth =>
    split at h
    · cases h
    · next htop =>
      cases h
      exact ⟨Decidable.not_not.mp hdepth, htop, rfl⟩

theorem enter_refused {s after : Nesting α} {depth : Nat} {frame : α} {v : Violation}
    (h : s.enter depth frame = (after, .error v)) : after = s := by
  unfold enter at h
  split at h
  · cases h; rfl
  · split at h
    · cases h; rfl
    · cases h

theorem protocol_enter (s : Nesting α) (depth : Nat) (frame : α) :
    s.protocol.enter depth = match s.enter depth frame with
      | (after, .ok _) => .ok after.protocol
      | (_, .error v) => .error v := by
  unfold enter Protocol.enter
  by_cases hd : depth ≠ s.opened
  · rw [if_pos hd]
    exact if_pos hd
  · rw [if_neg hd]
    by_cases hr : depth = 0 ∧ s.root.isSome
    · rw [if_pos hr]
      exact (if_neg hd).trans (if_pos hr)
    · rw [if_neg hr]
      exact (if_neg hd).trans (if_neg hr)

theorem sound_enter {s after : Nesting α} {depth : Nat} {frame : α} {kept : Bool} (hs : s.Sound)
    (h : s.enter depth frame = (after, .ok kept)) : after.Sound := by
  obtain ⟨hdepth, _, rfl⟩ := cases_of_enter h
  unfold Sound at hs ⊢
  cases htop : s.topOnly with
  | false => simp [keeps, htop] at hs ⊢; exact hs
  | true =>
    by_cases hz : depth = 0
    · simp [keeps, htop, ← hdepth, hz] at hs ⊢; simp [hs]
    · simp [keeps, htop, hz] at hs ⊢; omega

theorem topOnly_enter {s after : Nesting α} {depth : Nat} {frame : α} {kept : Bool}
    (h : s.enter depth frame = (after, .ok kept)) : after.topOnly = s.topOnly := by
  obtain ⟨_, _, rfl⟩ := cases_of_enter h
  rfl

variable [Adopts α]

theorem close_of_opened_zero {s : Nesting α} (h : s.opened = 0) (f : α → α) :
    s.close f = (s, .error .unmatchedEnding) := by
  rw [close, exit, if_pos h]
  rfl

/-- The ways in which an action closes: its frame is not kept, it is the top action, or its frame
goes to the one around it. -/
theorem close_cases {s : Nesting α} (h : s.opened ≠ 0) (f : α → α) :
    (s.frames.length ≤ s.opened - 1 ∧
      s.close f = ({ s with opened := s.opened - 1 }, .ok ())) ∨
    (∃ frame, s.frames = [frame] ∧ s.opened = 1 ∧
      s.close f = ({ s with opened := 0, frames := [], root := some (f frame) }, .ok ())) ∨
    (∃ frame parent rest, s.frames = frame :: parent :: rest ∧
      s.opened - 1 < s.frames.length ∧
      s.close f = ({ s with
        opened := s.opened - 1, frames := Adopts.adopt parent (f frame) :: rest }, .ok ())) := by
  unfold close exit
  rw [if_neg h]
  dsimp only
  split
  · next hle => exact .inl ⟨hle, rfl⟩
  · next hlt =>
    rcases hf : s.frames with _ | ⟨frame, _ | ⟨parent, rest⟩⟩
    · simp [hf] at hlt
    · have hone : s.opened = 1 := by simp [hf] at hlt; omega
      exact .inr (.inl ⟨frame, rfl, hone, by rw [hone]; rfl⟩)
    · exact .inr (.inr ⟨frame, parent, rest, rfl, by rw [← hf]; omega, rfl⟩)

theorem close_of_opened_pos {s : Nesting α} (h : s.opened ≠ 0) (f : α → α) :
    ∃ after, s.close f = (after, .ok ()) := by
  obtain ⟨_, hc⟩ | ⟨_, _, _, hc⟩ | ⟨_, _, _, _, _, hc⟩ := close_cases h f
  · exact ⟨_, hc⟩
  · exact ⟨_, hc⟩
  · exact ⟨_, hc⟩

theorem close_refused {s after : Nesting α} {f : α → α} {v : Violation}
    (h : s.close f = (after, .error v)) : after = s := by
  by_cases hopened : s.opened = 0
  · rw [close_of_opened_zero hopened] at h
    cases h
    rfl
  · obtain ⟨_, hc⟩ := close_of_opened_pos hopened f
    rw [hc] at h
    cases h

theorem protocol_close {s : Nesting α} (hs : s.Sound) (f : α → α) :
    s.protocol.exit = match s.close f with
      | (after, .ok ()) => .ok after.protocol
      | (_, .error v) => .error v := by
  by_cases ho : s.opened = 0
  · rw [close_of_opened_zero ho]
    exact if_pos ho
  · have hexit : s.protocol.exit = .ok ⟨s.opened - 1, s.root.isSome || s.opened = 1⟩ :=
      if_neg ho
    unfold Sound at hs
    rw [hexit]
    obtain ⟨hle, hc⟩ | ⟨frame, hf, hone, hc⟩ | ⟨frame, parent, rest, hf, hlt, hc⟩ :=
      close_cases ho f
    · have hne : s.opened ≠ 1 := by
        intro hone
        cases htop : s.topOnly <;> simp [htop, hone] at hs <;> omega
      rw [hc]
      simp [protocol, hne]
    · rw [hc, hone]
      simp [protocol]
    · have hne : s.opened ≠ 1 := by
        intro hone
        cases htop : s.topOnly <;> simp [htop, hone, hf] at hs
      rw [hc]
      simp [protocol, hne]

theorem cases_of_close {s after : Nesting α} {f : α → α} (h : s.close f = (after, .ok ())) :
    s.opened ≠ 0 ∧
      ((s.frames.length ≤ s.opened - 1 ∧ after = { s with opened := s.opened - 1 }) ∨
        (∃ frame, s.frames = [frame] ∧ s.opened = 1 ∧
          after = { s with opened := 0, frames := [], root := some (f frame) }) ∨
        (∃ frame parent rest, s.frames = frame :: parent :: rest ∧
          s.opened - 1 < s.frames.length ∧
          after = { s with
            opened := s.opened - 1, frames := Adopts.adopt parent (f frame) :: rest })) := by
  by_cases hopened : s.opened = 0
  · rw [close_of_opened_zero hopened] at h
    cases h
  · refine ⟨hopened, ?_⟩
    obtain ⟨hle, hc⟩ | ⟨frame, hf, hone, hc⟩ | ⟨frame, parent, rest, hf, hlt, hc⟩ :=
      close_cases hopened f
    · exact .inl ⟨hle, congrArg Prod.fst (h.symm.trans hc)⟩
    · exact .inr (.inl ⟨frame, hf, hone, congrArg Prod.fst (h.symm.trans hc)⟩)
    · exact .inr (.inr ⟨frame, parent, rest, hf, hlt, congrArg Prod.fst (h.symm.trans hc)⟩)

theorem opened_of_close {s after : Nesting α} {f : α → α} (h : s.close f = (after, .ok ())) :
    s.opened = after.opened + 1 := by
  obtain ⟨hopened, ⟨_, rfl⟩ | ⟨_, _, hone, rfl⟩ | ⟨_, _, _, _, _, rfl⟩⟩ := cases_of_close h
  · exact (Nat.succ_pred_eq_of_ne_zero hopened).symm
  · exact hone
  · exact (Nat.succ_pred_eq_of_ne_zero hopened).symm

theorem sound_close {s after : Nesting α} {f : α → α} (hs : s.Sound)
    (h : s.close f = (after, .ok ())) : after.Sound := by
  obtain ⟨ho, ⟨hle, rfl⟩ | ⟨frame, hf, hone, rfl⟩ | ⟨frame, parent, rest, hf, hlt, rfl⟩⟩ :=
    cases_of_close h
  · unfold Sound at hs ⊢
    cases htop : s.topOnly <;> simp [htop] at hs ⊢ <;> omega
  · unfold Sound
    cases htop : s.topOnly <;> simp
  · unfold Sound at hs ⊢
    cases htop : s.topOnly <;> simp [htop, hf] at hs ⊢ <;> omega

theorem topOnly_close {s after : Nesting α} {f : α → α} (h : s.close f = (after, .ok ())) :
    after.topOnly = s.topOnly := by
  obtain ⟨_, ⟨_, rfl⟩ | ⟨_, _, _, rfl⟩ | ⟨_, _, _, _, _, rfl⟩⟩ := cases_of_close h <;> rfl

omit [Adopts α] in
theorem protocol_modifyCurrent (s : Nesting α) (f : α → α) :
    (s.modifyCurrent f).protocol = s.protocol := by
  unfold modifyCurrent
  split <;> rfl

omit [Adopts α] in
theorem sound_modifyCurrent {s : Nesting α} (hs : s.Sound) (f : α → α) :
    (s.modifyCurrent f).Sound := by
  unfold modifyCurrent
  split
  · unfold Sound at hs ⊢
    rw [← hs]
    dsimp only
    split <;> simp_all
  · exact hs

omit [Adopts α] in
theorem topOnly_modifyCurrent (s : Nesting α) (f : α → α) :
    (s.modifyCurrent f).topOnly = s.topOnly := by
  unfold modifyCurrent
  split <;> rfl

/-! ### Nestings that keep every frame -/

structure Whole (s : Nesting α) : Prop where
  all : s.topOnly = false
  length : s.frames.length = s.opened

omit [Adopts α] in
theorem Whole.start : (start false : Nesting α).Whole := ⟨rfl, rfl⟩

omit [Adopts α] in
theorem whole_iff {s : Nesting α} : s.Whole ↔ s.topOnly = false ∧ s.Sound := by
  constructor
  · rintro ⟨hall, hlength⟩
    refine ⟨hall, ?_⟩
    rwa [Sound, hall]
  · rintro ⟨hall, hsound⟩
    rw [Sound, hall] at hsound
    exact ⟨hall, hsound⟩

omit [Adopts α] in
theorem Whole.sound {s : Nesting α} (h : s.Whole) : s.Sound := (whole_iff.mp h).2

omit [Adopts α] in
theorem enter_of_whole {s after : Nesting α} (h : s.Whole) {depth : Nat} {frame : α} {kept : Bool}
    (he : s.enter depth frame = (after, .ok kept)) :
    depth = s.opened ∧ (depth = 0 → s.root = none) ∧
      after = { s with opened := s.opened + 1, frames := frame :: s.frames } := by
  obtain ⟨hdepth, htop, rfl⟩ := cases_of_enter he
  refine ⟨hdepth, fun hz => ?_, ?_⟩
  · simpa [hz] using htop
  · simp [keeps, h.all]

/-- An action that closes is the top one, or its frame goes to the one around it. -/
theorem close_of_whole {s after : Nesting α} (h : s.Whole) {f : α → α}
    (hc : s.close f = (after, .ok ())) :
    (∃ frame, s.frames = [frame] ∧ s.opened = 1 ∧
        after = { s with opened := 0, frames := [], root := some (f frame) }) ∨
      ∃ frame parent rest, s.frames = frame :: parent :: rest ∧ s.opened = rest.length + 2 ∧
        after = { s with
          opened := s.opened - 1, frames := Adopts.adopt parent (f frame) :: rest } := by
  have hlength := h.length
  obtain ⟨hopened, ⟨hle, _⟩ | ⟨frame, hframes, hone, heq⟩ | ⟨frame, parent, rest, hframes, _, heq⟩⟩
    := cases_of_close hc
  · omega
  · exact .inl ⟨frame, hframes, hone, heq⟩
  · exact .inr ⟨frame, parent, rest, hframes, by rw [← hlength, hframes]; rfl, heq⟩

/-! ### What holds of the frames -/

/-- Something holds of the frames that are open, and something of the finished top frame. -/
structure Holds (running finished : α → Prop) (s : Nesting α) : Prop where
  frames : ∀ frame ∈ s.frames, running frame
  root : ∀ frame, s.root = some frame → finished frame

variable {running finished : α → Prop}

omit [Adopts α] in
theorem holds_start (topOnly : Bool) : (start topOnly).Holds running finished :=
  ⟨List.forall_mem_nil running, fun _ hroot => by cases hroot⟩

omit [Adopts α] in
theorem Holds.enter {s after : Nesting α} {depth : Nat} {frame : α} {kept : Bool}
    (h : s.Holds running finished) (hframe : running frame)
    (he : s.enter depth frame = (after, .ok kept)) : after.Holds running finished := by
  obtain ⟨_, _, rfl⟩ := cases_of_enter he
  refine ⟨?_, h.root⟩
  dsimp only
  split
  · exact List.forall_mem_cons.mpr ⟨hframe, h.frames⟩
  · exact h.frames

omit [Adopts α] in
theorem Holds.modifyCurrent {s : Nesting α} {f : α → α} (h : s.Holds running finished)
    (hf : ∀ frame, running frame → running (f frame)) :
    (s.modifyCurrent f).Holds running finished := by
  unfold Nesting.modifyCurrent
  split
  · refine ⟨?_, h.root⟩
    dsimp only
    split
    · exact List.forall_mem_nil running
    · next frame rest hcons =>
      have hframes := h.frames
      rw [hcons, List.forall_mem_cons] at hframes
      exact List.forall_mem_cons.mpr ⟨hf frame hframes.1, hframes.2⟩
  · exact h

/-- Frames are adopted only where all of them are kept. -/
theorem Holds.close {s after : Nesting α} {f : α → α} (h : s.Holds running finished)
    (hsound : s.Sound) (hfinish : ∀ frame, running frame → finished (f frame))
    (hadopt : s.topOnly = false → ∀ parent child, running parent → finished child →
      running (Adopts.adopt parent child))
    (hc : s.close f = (after, .ok ())) : after.Holds running finished := by
  have hframes := h.frames
  obtain ⟨_, ⟨_, rfl⟩ | ⟨frame, hone, _, rfl⟩ | ⟨frame, parent, rest, hmany, _, rfl⟩⟩ :=
    cases_of_close hc
  · exact ⟨h.frames, h.root⟩
  · rw [hone, List.forall_mem_singleton] at hframes
    refine ⟨List.forall_mem_nil running, fun top htop => ?_⟩
    cases htop
    exact hfinish frame hframes
  · have hall : s.topOnly = false := by
      rw [Bool.eq_false_iff]
      intro htop
      rw [Sound, hmany, htop, if_pos rfl, List.length_cons, List.length_cons] at hsound
      omega
    rw [hmany, List.forall_mem_cons, List.forall_mem_cons] at hframes
    obtain ⟨hframe, hparent, hrest⟩ := hframes
    have hadopted := hadopt hall parent (f frame) hparent (hfinish frame hframe)
    exact ⟨List.forall_mem_cons.mpr ⟨hadopted, hrest⟩, h.root⟩

end Nesting
end ExecutionTrace
