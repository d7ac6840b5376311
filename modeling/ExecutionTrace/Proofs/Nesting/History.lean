import Mathlib.Algebra.BigOperators.Group.List.Basic
import ExecutionTrace.Proofs.Nesting

/-! What a nesting holds after any calls. The calls that were accepted are the brackets of a tree
of actions, those on one path still open, and the nesting holds the frames of that path or of the
finished top action. -/
namespace ExecutionTrace
namespace Nesting

inductive Call (α ρ : Type) where
  | enter (depth : Nat) (frame : α)
  | exit (finish : α → α × ρ)

def Call.entered? {α ρ : Type} : Call α ρ → Option α
  | enter _ frame => some frame
  | exit _ => none

section Calls

variable {α ρ : Type} [Adopts α]

/-- The state after a call, and the report of a frame that was finished. -/
def call (s : Nesting α) : Call α ρ → Nesting α × Except Violation (Option ρ)
  | .enter depth frame =>
    let (s, answer) := s.enter depth frame
    (s, answer.map fun _ => none)
  | .exit finish => s.exit finish

def after (s : Nesting α) : List (Call α ρ) → Nesting α
  | [] => s
  | c :: rest => (s.call c).1.after rest

def accepted (s : Nesting α) : List (Call α ρ) → List (Call α ρ × Option ρ)
  | [] => []
  | c :: rest =>
    match s.call c with
    | (next, .ok report) => (c, report) :: next.accepted rest
    | (next, .error _) => next.accepted rest

end Calls

/-! ### Actions -/

/-- Finished actions side by side, in order, each with the frame that it was entered with. -/
inductive Actions (α ρ : Type) where
  | done
  | action (entered : α) (inside : Actions α ρ) (finish : α → α × ρ) (rest : Actions α ρ)

structure OpenAction (α ρ : Type) where
  entered : α
  inside : Actions α ρ

/-- The open actions, innermost first, or the top action when it is finished. -/
inductive History (α ρ : Type) where
  | running (path : List (OpenAction α ρ))
  | finished (top : OpenAction α ρ) (finish : α → α × ρ)

variable {α ρ : Type} [Adopts α]

namespace Actions

def adoptedBy (parent : α) : Actions α ρ → α
  | done => parent
  | action entered inside finish rest =>
    rest.adoptedBy (Adopts.adopt parent (finish (inside.adoptedBy entered)).1)

def snoc : Actions α ρ → α → Actions α ρ → (α → α × ρ) → Actions α ρ
  | done, entered, inside, finish => action entered inside finish done
  | action entered' inside' finish' rest, entered, inside, finish =>
    action entered' inside' finish' (rest.snoc entered inside finish)

end Actions

namespace OpenAction

/-- The frame of the action, with the actions inside unless only the top frame is kept. -/
def frame (topOnly : Bool) (o : OpenAction α ρ) : α :=
  if topOnly then o.entered else o.inside.adoptedBy o.entered

def report? (topOnly : Bool) (depth : Nat) (o : OpenAction α ρ) (finish : α → α × ρ) : Option ρ :=
  if !topOnly || depth = 0 then some (finish (o.frame topOnly)).2 else none

def holding (o inner : OpenAction α ρ) (finish : α → α × ρ) : OpenAction α ρ :=
  { o with inside := o.inside.snoc inner.entered inner.inside finish }

end OpenAction

/-- The calls that make actions, each with its report, when `depth` actions are open around. -/
def Actions.calls (topOnly : Bool) (depth : Nat) : Actions α ρ → List (Call α ρ × Option ρ)
  | done => []
  | action entered inside finish rest =>
    (.enter depth entered, none) :: (inside.calls topOnly (depth + 1) ++
      (.exit finish, OpenAction.report? topOnly depth ⟨entered, inside⟩ finish) ::
        rest.calls topOnly depth)

namespace History

def pathCalls (topOnly : Bool) : List (OpenAction α ρ) → List (Call α ρ × Option ρ)
  | [] => []
  | o :: outer =>
    pathCalls topOnly outer ++
      (.enter outer.length o.entered, none) :: o.inside.calls topOnly (outer.length + 1)

def calls (topOnly : Bool) : History α ρ → List (Call α ρ × Option ρ)
  | running path => pathCalls topOnly path
  | finished top finish => (Actions.action top.entered top.inside finish .done).calls topOnly 0

def frames (topOnly : Bool) : List (OpenAction α ρ) → List α
  | [] => []
  | o :: outer =>
    if !topOnly || outer.isEmpty then o.frame topOnly :: frames topOnly outer
    else frames topOnly outer

def nesting (topOnly : Bool) : History α ρ → Nesting α
  | running path => ⟨frames topOnly path, path.length, topOnly, none⟩
  | finished top finish => ⟨[], 0, topOnly, some (finish (top.frame topOnly)).1⟩

end History

/-! ### One call -/

private theorem exit_of_not_kept {s : Nesting α} (hopened : s.opened ≠ 0)
    (hframes : s.frames.length ≤ s.opened - 1) (finish : α → α × ρ) :
    s.exit finish = ({ s with opened := s.opened - 1 }, .ok none) := by
  rw [exit, if_neg hopened]
  exact if_pos hframes

private theorem Actions.adoptedBy_snoc (parent entered : α) (inside : Actions α ρ)
    (finish : α → α × ρ) (actions : Actions α ρ) :
    (actions.snoc entered inside finish).adoptedBy parent =
      Adopts.adopt (actions.adoptedBy parent) (finish (inside.adoptedBy entered)).1 := by
  induction actions generalizing parent with
  | done => rfl
  | action entered' inside' finish' rest _ ih => exact ih _

private theorem Actions.calls_snoc (topOnly : Bool) (depth : Nat) (entered : α)
    (inside : Actions α ρ) (finish : α → α × ρ) (actions : Actions α ρ) :
    (actions.snoc entered inside finish).calls topOnly depth =
      actions.calls topOnly depth ++
        (Actions.action entered inside finish .done).calls topOnly depth := by
  induction actions with
  | done => rfl
  | action entered' inside' finish' rest _ ih => simp [snoc, calls, ih]

namespace History

omit [Adopts α] in
private theorem isEmpty_iff_length {path : List (OpenAction α ρ)} :
    path.isEmpty = decide (path.length = 0) := by
  cases path <;> rfl

private theorem length_frames (topOnly : Bool) (path : List (OpenAction α ρ)) :
    (frames topOnly path).length = if topOnly then min path.length 1 else path.length := by
  induction path with
  | nil => cases topOnly <;> rfl
  | cons o outer ih =>
    cases topOnly with
    | false => simpa [frames] using ih
    | true =>
      cases outer with
      | nil => rfl
      | cons p rest => simpa [frames] using ih

/-- An action inside another one ends: its frame goes to the other one, if frames inside the top
frame are kept. -/
private theorem exit_inner (topOnly : Bool) (o p : OpenAction α ρ) (outer : List (OpenAction α ρ))
    (finish : α → α × ρ) :
    (nesting topOnly (running (o :: p :: outer))).exit finish =
      (nesting topOnly (running (p.holding o finish :: outer)),
        .ok (o.report? topOnly (outer.length + 1) finish)) := by
  cases topOnly with
  | false =>
    have hlength : (frames false outer).length = outer.length := length_frames false outer
    have hadopted : (p.holding o finish).frame false =
        Adopts.adopt (p.frame false) (finish (o.frame false)).1 :=
      Actions.adoptedBy_snoc _ _ _ _ _
    simp [nesting, exit, hlength, frames, hadopted, OpenAction.report?]
  | true =>
    have hlength : (frames true (o :: p :: outer)).length ≤ outer.length + 1 := by
      rw [length_frames]
      simp
    have hframes : frames true (o :: p :: outer) = frames true (p.holding o finish :: outer) := by
      cases outer <;> rfl
    have hexit := exit_of_not_kept (s := nesting true (running (o :: p :: outer)))
      (Nat.succ_ne_zero _) hlength finish
    rw [hexit, nesting, hframes]
    rfl

/-- After the end of the top action all calls are refused. -/
private theorem call_finished (topOnly : Bool) (top : OpenAction α ρ) (finish : α → α × ρ)
    (c : Call α ρ) : ∃ v, (nesting topOnly (finished top finish)).call c =
      (nesting topOnly (finished top finish), .error v) := by
  cases c with
  | enter depth frame =>
    by_cases hdepth : depth = 0
    · exact ⟨.secondTop, by simp [call, nesting, enter, hdepth, Except.map]⟩
    · exact ⟨.entryDepth depth 0, by simp [call, nesting, enter, hdepth, Except.map]⟩
  | exit finish => exact ⟨.unmatchedEnding, rfl⟩

/-- A call is refused and does nothing, or it adds itself to the calls of the history. -/
private theorem call_cases (topOnly : Bool) (h : History α ρ) (c : Call α ρ) :
    (∃ v, (h.nesting topOnly).call c = (h.nesting topOnly, .error v)) ∨
      ∃ next report, (h.nesting topOnly).call c = (nesting topOnly next, .ok report) ∧
        next.calls topOnly = h.calls topOnly ++ [(c, report)] := by
  cases h with
  | finished top finish => exact .inl (call_finished topOnly top finish c)
  | running path =>
    cases c with
    | enter depth frame =>
      by_cases hdepth : depth = path.length
      · refine .inr ⟨running (⟨frame, .done⟩ :: path), none, ?_, ?_⟩
        · have hframe : OpenAction.frame topOnly (⟨frame, .done⟩ : OpenAction α ρ) = frame := by
            cases topOnly <;> rfl
          simp [call, nesting, enter, hdepth, keeps, frames, hframe, isEmpty_iff_length, Except.map]
        · rw [hdepth]
          rfl
      · exact .inl ⟨.entryDepth depth path.length, by
          simp [call, nesting, enter, hdepth, Except.map]⟩
    | exit finish =>
      rcases path with _ | ⟨o, _ | ⟨p, outer⟩⟩
      · exact .inl ⟨.unmatchedEnding, rfl⟩
      · refine .inr ⟨finished o finish, o.report? topOnly 0 finish, ?_, ?_⟩
        · simp [call, nesting, exit, frames, OpenAction.report?]
        · simp [calls, pathCalls, Actions.calls]
      · refine .inr ⟨running (p.holding o finish :: outer), _,
          exit_inner topOnly o p outer finish, ?_⟩
        simp [calls, pathCalls, OpenAction.holding, Actions.calls_snoc, Actions.calls]

/-- Calls lead from the nesting of a history to the nesting of a longer one. -/
theorem exists_after (topOnly : Bool) (h : History α ρ) (asked : List (Call α ρ)) :
    ∃ next : History α ρ, (h.nesting topOnly).after asked = next.nesting topOnly ∧
      h.calls topOnly ++ (h.nesting topOnly).accepted asked = next.calls topOnly := by
  induction asked generalizing h with
  | nil => exact ⟨h, rfl, List.append_nil _⟩
  | cons c rest ih =>
    obtain ⟨v, hrefused⟩ | ⟨mid, report, haccepted, hcalls⟩ := call_cases topOnly h c
    · rw [after, accepted, hrefused]
      exact ih h
    · obtain ⟨next, hafter, hnext⟩ := ih mid
      rw [after, accepted, haccepted]
      refine ⟨next, hafter, ?_⟩
      rw [← hnext, hcalls, List.append_assoc, List.singleton_append]

theorem after_finished (topOnly : Bool) (top : OpenAction α ρ) (finish : α → α × ρ)
    (later : List (Call α ρ)) :
    (nesting topOnly (finished top finish)).after later =
      nesting topOnly (finished top finish) := by
  induction later with
  | nil => rfl
  | cons c rest ih =>
    obtain ⟨v, hrefused⟩ := call_finished topOnly top finish c
    rw [after, hrefused]
    exact ih

end History

/-! ### What frames contain -/

def entries (calls : List (Call α ρ × Option ρ)) : List α := calls.filterMap (·.1.entered?)

section Contents

variable {μ : Type} [AddCommMonoid μ]

/-- What is said of frames adds up: a frame that adopts another has what both have, and ending an
action neither adds to its frame nor takes away. -/
structure AddsUp (content : α → μ) (calls : List (Call α ρ × Option ρ)) : Prop where
  adopt : ∀ parent child, content (Adopts.adopt parent child) = content parent + content child
  finish : ∀ finish report, (Call.exit finish, report) ∈ calls →
    ∀ frame, content (finish frame).1 = content frame

private theorem AddsUp.of_subset {content : α → μ} {calls calls' : List (Call α ρ × Option ρ)}
    (h : AddsUp content calls) (hsubset : calls' ⊆ calls) : AddsUp content calls' :=
  ⟨h.adopt, fun finish report hmem => h.finish finish report (hsubset hmem)⟩

private theorem Actions.content_adoptedBy {content : α → μ} (actions : Actions α ρ) (parent : α)
    (depth : Nat) (h : AddsUp content (actions.calls false depth)) :
    content (actions.adoptedBy parent) =
      content parent + ((entries (actions.calls false depth)).map content).sum := by
  induction actions generalizing parent depth with
  | done => simp [adoptedBy, calls, entries]
  | action entered inside finish rest ihInside ihRest =>
    have hinside := ihInside entered (depth + 1) (h.of_subset (by simp [calls]))
    have hrest := ihRest (Adopts.adopt parent (finish (inside.adoptedBy entered)).1) depth
      (h.of_subset fun c hc => by simp [calls, hc])
    have hfinish := h.finish finish (OpenAction.report? false depth ⟨entered, inside⟩ finish)
      (by simp [calls]) (inside.adoptedBy entered)
    rw [adoptedBy, hrest, h.adopt, hfinish, hinside]
    simp [calls, entries, Call.entered?, add_assoc]

namespace History

private theorem content_frames {content : α → μ} (path : List (OpenAction α ρ))
    (h : AddsUp content (pathCalls false path)) :
    ((frames false path).map content).sum = ((entries (pathCalls false path)).map content).sum := by
  induction path with
  | nil => rfl
  | cons o outer ih =>
    have houter := ih (h.of_subset (by simp [pathCalls]))
    have hinside := o.inside.content_adoptedBy o.entered (outer.length + 1)
      (h.of_subset (by simp [pathCalls]))
    have hframes : frames false (o :: outer) =
        o.inside.adoptedBy o.entered :: frames false outer := rfl
    rw [hframes, List.map_cons, List.sum_cons, houter, hinside, add_comm]
    simp [pathCalls, entries, Call.entered?]

private theorem content_nesting {content : α → μ} (h : History α ρ)
    (hcontent : AddsUp content (h.calls false)) :
    (((h.nesting false).frames ++ (h.nesting false).root.toList).map content).sum =
      ((entries (h.calls false)).map content).sum := by
  cases h with
  | running path =>
    have hpath := content_frames path hcontent
    simpa [nesting, calls] using hpath
  | finished top finish =>
    have hinside := top.inside.content_adoptedBy top.entered 1
      (hcontent.of_subset (by simp [calls, Actions.calls]))
    have hfinish := hcontent.finish finish (top.report? false 0 finish)
      (by simp [calls, Actions.calls]) (top.inside.adoptedBy top.entered)
    simpa [nesting, calls, Actions.calls, entries, Call.entered?, OpenAction.frame, hfinish]
      using hinside

end History

end Contents

/-! ### Any calls -/

omit [Adopts α] in
theorem enter_iff (s : Nesting α) (depth : Nat) (frame : α) :
    (∃ kept, (s.enter depth frame).2 = .ok kept) ↔
      depth = s.opened ∧ (depth = 0 → s.root = none) := by
  unfold enter
  split
  · next hdepth => simp [hdepth]
  · next hdepth =>
    split
    · next htop =>
      obtain ⟨hzero, hroot⟩ := htop
      simp only [reduceCtorEq, exists_false, false_iff, not_and, hzero]
      intro _ hnone
      rw [hnone trivial] at hroot
      cases hroot
    · next htop =>
      refine ⟨fun _ => ⟨Decidable.not_not.mp hdepth, fun hzero => ?_⟩, fun _ => ⟨_, rfl⟩⟩
      simpa [hzero] using htop

omit [Adopts α] in
private theorem eq_keeps_of_enter {s : Nesting α} {depth : Nat} {frame : α} {kept : Bool}
    (h : (s.enter depth frame).2 = .ok kept) : kept = s.keeps depth := by
  unfold enter at h
  split at h
  · cases h
  · split at h
    · cases h
    · cases h
      rfl

theorem call_refused {s : Nesting α} {c : Call α ρ} {v : Violation}
    (h : (s.call c).2 = .error v) : (s.call c).1 = s := by
  cases c with
  | enter depth frame =>
    rcases he : s.enter depth frame with ⟨after, v | kept⟩
    · simp only [call, he]
      exact enter_refused he
    · simp only [call, he, Except.map] at h
      cases h
  | exit finish =>
    by_cases hopened : s.opened = 0
    · simp only [call, exit, if_pos hopened]
    · -- an ending with an action open is accepted
      simp only [call, exit, if_neg hopened] at h
      repeat' split at h
      all_goals cases h

theorem exit_of_closed {s : Nesting α} (h : s.opened = 0) (finish : α → α × ρ) :
    s.exit finish = (s, .error .unmatchedEnding) := if_pos h

theorem exit_of_tracking {s : Nesting α} (h : s.isTracking = true) :
    ∃ frame, s.current = some frame ∧
      ∀ finish : α → α × ρ, ∃ next, s.exit finish = (next, .ok (some (finish frame).2)) := by
  obtain ⟨hopened, hlength⟩ : 0 < s.opened ∧ s.frames.length = s.opened := by
    simpa [isTracking] using h
  have hkept : ¬s.frames.length ≤ s.opened - 1 := by omega
  rcases hframes : s.frames with _ | ⟨frame, rest⟩
  · rw [hframes] at hlength
    exact absurd hlength (Nat.ne_of_lt hopened)
  · refine ⟨frame, by rw [current, hframes]; rfl, fun finish => ?_⟩
    rw [exit, if_neg (Nat.ne_of_gt hopened)]
    dsimp only
    rw [if_neg hkept, hframes]
    cases rest with
    | nil => exact ⟨_, rfl⟩
    | cons parent outer => exact ⟨_, rfl⟩

omit [Adopts α] in
theorem isTracking_iff {s : Nesting α} (h : s.Sound) :
    s.isTracking = true ↔ 0 < s.opened ∧ (s.topOnly = false ∨ s.opened = 1) := by
  rw [isTracking, h]
  cases s.topOnly with
  | false => simp
  | true =>
    simp
    omega

theorem exit_of_untracked {s : Nesting α} (hs : s.Sound) (hopened : 0 < s.opened)
    (h : s.isTracking = false) (finish : α → α × ρ) :
    s.exit finish = ({ s with opened := s.opened - 1 }, .ok none) := by
  refine exit_of_not_kept (Nat.ne_of_gt hopened) ?_ finish
  have hlength : s.frames.length ≠ s.opened := by
    simpa [isTracking, hopened] using h
  unfold Sound at hs
  split at hs <;> omega

/-- What is to be said of a nesting after calls, some of which may have been refused. -/
structure Faithful (topOnly : Bool) (asked : List (Call α ρ)) (s : Nesting α) : Prop where
  length_frames : s.frames.length = if topOnly then min s.opened 1 else s.opened
  isSome_root : s.root.isSome = s.isFinished
  of_isFinished : s.isFinished = true → s.opened = 0 ∧ s.frames = []
  /-- The finished top action is never replaced or changed. -/
  root_after : ∀ (later : List (Call α ρ)) (root : α), s.root = some root →
    (s.after later).root = some root
  isTracking : s.isTracking = true ↔ 0 < s.opened ∧ (topOnly = false ∨ s.opened = 1)
  enter : ∀ (depth : Nat) (frame : α), (∃ kept, (s.enter depth frame).2 = .ok kept) ↔
    depth = s.opened ∧ (depth = 0 → s.root = none)
  kept : ∀ (depth : Nat) (frame : α) (kept : Bool), (s.enter depth frame).2 = .ok kept →
    (kept = true ↔ topOnly = false ∨ depth = 0)
  /-- A refusal has nothing to do with how a frame was to be finished. -/
  exit_of_closed : s.opened = 0 → ∀ finish : α → α × ρ, s.exit finish = (s, .error .unmatchedEnding)
  exit_of_tracking : s.isTracking = true → ∃ frame, s.current = some frame ∧
    ∀ finish : α → α × ρ, ∃ next, s.exit finish = (next, .ok (some (finish frame).2))
  exit_of_untracked : 0 < s.opened → s.isTracking = false → ∀ finish : α → α × ρ,
    s.exit finish = ({ s with opened := s.opened - 1 }, .ok none)
  after_refused : ∀ (c : Call α ρ) (v : Violation), (s.call c).2 = .error v → (s.call c).1 = s
  /-- The accepted calls and their reports are those of a tree of actions, and the frames are
  those of the tree. -/
  history : ∃ h : History α ρ,
    (start topOnly).accepted asked = h.calls topOnly ∧ s = h.nesting topOnly
  /-- Every frame that was entered is in one place among the frames that are held. -/
  contents : topOnly = false → ∀ {μ : Type} [AddCommMonoid μ] (content : α → μ),
    AddsUp content ((start topOnly).accepted asked) →
      ((s.frames ++ s.root.toList).map content).sum =
        ((entries ((start topOnly).accepted asked)).map content).sum

/-- Whatever a nesting is asked to do, it holds what the calls that it accepted make. -/
theorem faithful_after (topOnly : Bool) (asked : List (Call α ρ)) :
    Faithful topOnly asked ((start topOnly).after asked) := by
  obtain ⟨h, hafter, haccepted⟩ := History.exists_after topOnly (.running []) asked
  have hstart : History.nesting topOnly (.running [] : History α ρ) = start topOnly := rfl
  rw [hstart] at hafter haccepted
  have haccepted : (start topOnly).accepted asked = h.calls topOnly := haccepted
  rw [hafter]
  have hlength : (h.nesting topOnly).frames.length =
      if topOnly then min (h.nesting topOnly).opened 1 else (h.nesting topOnly).opened := by
    cases h with
    | running path => exact History.length_frames topOnly path
    | finished top finish => cases topOnly <;> rfl
  have htopOnly : (h.nesting topOnly).topOnly = topOnly := by cases h <;> rfl
  have hsound : (h.nesting topOnly).Sound := by rwa [Sound, htopOnly]
  refine
    { length_frames := hlength
      isSome_root := ?_
      of_isFinished := ?_
      root_after := ?_
      isTracking := ?_
      enter := enter_iff _
      kept := ?_
      exit_of_closed := exit_of_closed
      exit_of_tracking := exit_of_tracking
      exit_of_untracked := exit_of_untracked hsound
      after_refused := fun _ _ => call_refused
      history := ⟨h, haccepted, rfl⟩
      contents := ?_ }
  · cases h with
    | running path => simp [History.nesting, isFinished]
    | finished top finish => rfl
  · intro hfinished
    cases h with
    | running path => simp [History.nesting, isFinished] at hfinished
    | finished top finish => exact ⟨rfl, rfl⟩
  · intro later root hroot
    cases h with
    | running path => cases hroot
    | finished top finish => rw [History.after_finished, hroot]
  · rw [isTracking_iff hsound, htopOnly]
  · intro depth frame kept hkept
    rw [eq_keeps_of_enter hkept, keeps, htopOnly]
    simp
  · rintro rfl μ _ content hcontent
    rw [haccepted] at hcontent ⊢
    exact h.content_nesting hcontent

end Nesting
end ExecutionTrace
