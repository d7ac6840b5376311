import ExecutionTrace.Proofs.CallTree.WellFormed
import Mathlib.Data.Option.Basic

/-! What pruning does to the logs of a tree, frame by frame. A failure costs the logs of its frame
and of all frames inside, never those beside it or around it, and nothing else of the tree is
lost. -/
namespace ExecutionTrace.Frame

@[elab_as_elim]
theorem inductOn {P : Frame → Prop} (f : Frame)
    (frame : ∀ f, (∀ call ∈ f.calls, P call) → P f) : P f :=
  frame f fun call _hcall => inductOn call frame
termination_by sizeOf f
decreasing_by
  have hmember := List.sizeOf_lt_of_mem _hcall
  cases f
  simp only [Frame.mk.sizeOf_spec] at hmember ⊢
  omega

/-! ### Places in a tree -/

/-- The frame at a path, which names a place among the calls for each level below the top. -/
def at? (f : Frame) : List Nat → Option Frame
  | [] => some f
  | place :: path => f.calls[place]?.bind (·.at? path)

/-- Neither the frame at a path nor one around it failed. -/
def Succeeds (f : Frame) (path : List Nat) : Prop :=
  ∀ above outer, above <+: path → f.at? above = some outer → outer.error = none

private theorem succeeds_nil {f : Frame} : f.Succeeds [] ↔ f.error = none := by
  constructor
  · intro h
    exact h [] f List.nil_prefix rfl
  · intro h above outer habove houter
    obtain rfl := List.prefix_nil.mp habove
    cases houter
    exact h

private theorem succeeds_cons {f call : Frame} {place : Nat} (hcall : f.calls[place]? = some call)
    (path : List Nat) : f.Succeeds (place :: path) ↔ f.error = none ∧ call.Succeeds path := by
  constructor
  · intro h
    refine ⟨h [] f List.nil_prefix rfl, ?_⟩
    intro above outer habove houter
    apply h (place :: above) outer (List.cons_prefix_cons.mpr ⟨rfl, habove⟩)
    rw [at?, hcall]
    exact houter
  · intro ⟨htop, hinner⟩ above outer habove houter
    cases above with
    | nil =>
      cases houter
      exact htop
    | cons first above =>
      obtain ⟨rfl, hrest⟩ := List.cons_prefix_cons.mp habove
      rw [at?, hcall] at houter
      exact hinner above outer hrest houter

/-! ### One frame -/

/-- What is left of a frame when its logs may be dropped, and those of the frames inside. -/
structure Pruned (keep : Prop) (f pruned : Frame) : Prop where
  others : pruned = { f with calls := pruned.calls, logs := pruned.logs }
  calls : pruned.calls.length = f.calls.length
  kept : keep → pruned.logs = f.logs
  dropped : ¬keep → pruned.logs = []

private theorem Pruned.congr {keep keep' : Prop} {f pruned : Frame} (h : Pruned keep f pruned)
    (hkeep : keep ↔ keep') : Pruned keep' f pruned where
  others := h.others
  calls := h.calls
  kept := h.kept ∘ hkeep.mpr
  dropped := fun hnot => h.dropped (hnot ∘ hkeep.mp)

private theorem failed_eq_false_iff {f : Frame} : f.failed = false ↔ f.error = none :=
  Option.isSome_eq_false_iff.trans Option.isNone_iff_eq_none

private theorem pruned_top (f : Frame) (outerFailed : Bool) :
    Pruned (outerFailed = false ∧ f.error = none) f (f.pruneLogs outerFailed) := by
  have hkeep : (outerFailed || f.failed) = false ↔ outerFailed = false ∧ f.error = none := by
    rw [Bool.or_eq_false_iff, failed_eq_false_iff]
  rw [pruneLogs_eq]
  refine ⟨rfl, List.length_map _, fun h => ?_, fun h => ?_⟩
  · rw [hkeep.mpr h]
    rfl
  · rw [← hkeep, Bool.not_eq_false] at h
    rw [h]
    rfl

/-! ### All frames -/

/-- At every path, pruning finds a frame exactly where there was one, and the logs stay if nothing
on the way to it has failed. -/
private theorem pruned_at? (f : Frame) (outerFailed : Bool) (path : List Nat) :
    Option.Rel (Pruned (outerFailed = false ∧ f.Succeeds path)) (f.at? path)
      ((f.pruneLogs outerFailed).at? path) := by
  induction path generalizing f outerFailed with
  | nil =>
    apply Option.Rel.some
    exact (pruned_top f outerFailed).congr (and_congr_right' succeeds_nil.symm)
  | cons place path ih =>
    have hcalls : (f.pruneLogs outerFailed).calls[place]? =
        f.calls[place]?.map (pruneLogs (outerFailed || f.failed)) := by
      rw [pruneLogs_eq, List.getElem?_map]
    rw [at?, at?, hcalls]
    cases hcall : f.calls[place]? with
    | none => exact .none
    | some call =>
      have hkeep : ((outerFailed || f.failed) = false ∧ call.Succeeds path) ↔
          (outerFailed = false ∧ f.Succeeds (place :: path)) := by
        rw [succeeds_cons hcall, Bool.or_eq_false_iff, failed_eq_false_iff, and_assoc]
      have hinner := ih call (outerFailed || f.failed)
      simp only [hkeep] at hinner
      exact hinner

theorem failed_pruneLogs (f : Frame) (outerFailed : Bool) :
    (f.pruneLogs outerFailed).failed = f.failed := by
  rw [pruneLogs_eq]
  rfl

theorem pruneLogs_pruneLogs (f : Frame) (first second : Bool) :
    (f.pruneLogs first).pruneLogs second = f.pruneLogs (first || second) := by
  induction f using inductOn generalizing first second with
  | frame f ih =>
    have hflag : ((first || f.failed) || (second || f.failed)) =
        (first || second || f.failed) := by
      cases first <;> cases second <;> simp
    have hcalls : (f.calls.map (pruneLogs (first || f.failed))).map
        (pruneLogs (second || f.failed)) =
          f.calls.map (pruneLogs (first || second || f.failed)) := by
      rw [List.map_map]
      apply List.map_congr_left
      intro call hcall
      rw [Function.comp_apply, ih call hcall, hflag]
    rw [pruneLogs_eq (first || second), pruneLogs_eq second, failed_pruneLogs, pruneLogs_eq first]
    dsimp only
    rw [hcalls, ← hflag]
    cases first || f.failed <;> cases second || f.failed <;> rfl

theorem count_eq (f : Frame) : f.count = 1 + (f.calls.map count).foldr (· + ·) 0 := by
  have hall (calls : List Frame) : countAll calls = (calls.map count).foldr (· + ·) 0 := by
    induction calls with
    | nil => rfl
    | cons call calls ih => rw [countAll, ih, List.map_cons, List.foldr_cons]
  rw [← hall]
  cases f
  rfl

theorem height_eq (f : Frame) :
    f.height = (f.calls.map height).foldr (fun height most => max (height + 1) most) 0 := by
  have hall (calls : List Frame) : heightAll calls =
      (calls.map height).foldr (fun height most => max (height + 1) most) 0 := by
    induction calls with
    | nil => rfl
    | cons call calls ih => rw [heightAll, ih, List.map_cons, List.foldr_cons]
  rw [← hall]
  cases f
  rfl

theorem count_pruneLogs (f : Frame) (outerFailed : Bool) :
    (f.pruneLogs outerFailed).count = f.count := by
  induction f using inductOn generalizing outerFailed with
  | frame f ih =>
    rw [count_eq, count_eq f, pruneLogs_eq, List.map_map]
    congr 2
    exact List.map_congr_left fun call hcall => ih call hcall _

theorem height_pruneLogs (f : Frame) (outerFailed : Bool) :
    (f.pruneLogs outerFailed).height = f.height := by
  induction f using inductOn generalizing outerFailed with
  | frame f ih =>
    rw [height_eq, height_eq f, pruneLogs_eq, List.map_map]
    congr 1
    exact List.map_congr_left fun call hcall => ih call hcall _

/-- Pruning changes the logs of a tree and nothing else: at every path there is the frame that there
was, with its logs if neither it nor a frame around it failed, and without logs otherwise. To prune
twice is to prune once, with either flag. -/
theorem pruned_everywhere (f : Frame) :
    (∀ outerFailed,
      (f.pruneLogs outerFailed).count = f.count ∧
        (f.pruneLogs outerFailed).height = f.height ∧
        (f.pruneLogs outerFailed).failed = f.failed ∧
        ∀ path, Option.Rel (Pruned (outerFailed = false ∧ f.Succeeds path)) (f.at? path)
          ((f.pruneLogs outerFailed).at? path)) ∧
    (∀ first second, (f.pruneLogs first).pruneLogs second = f.pruneLogs (first || second)) ∧
    ∀ outerFailed, (f.pruneLogs outerFailed).pruneLogs outerFailed = f.pruneLogs outerFailed := by
  refine ⟨fun outerFailed => ?_, pruneLogs_pruneLogs f, fun outerFailed => ?_⟩
  · exact ⟨count_pruneLogs f outerFailed, height_pruneLogs f outerFailed,
      failed_pruneLogs f outerFailed, pruned_at? f outerFailed⟩
  · rw [pruneLogs_pruneLogs, Bool.or_self]

end ExecutionTrace.Frame
