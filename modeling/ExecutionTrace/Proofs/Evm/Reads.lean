import ExecutionTrace.Evm.Step

/-! Instructions above a database all of whose reads come back. None of them ends by a failed
read. -/
namespace ExecutionTrace

namespace Ledger

variable {l : Ledger}

private theorem account_of_answers (h : l.base.Answers) (a : Address) :
    ∃ record, l.account a = .ok record := by
  unfold account
  split
  · exact ⟨_, rfl⟩
  · exact h.account a

private theorem code_of_answers (h : l.base.Answers) (hash : Word) :
    ∃ bytes, l.code hash = .ok bytes := by
  unfold code
  split
  · exact ⟨_, rfl⟩
  · split
    · exact ⟨_, rfl⟩
    · exact h.code hash

private theorem slot_of_answers (h : l.base.Answers) (a : Address) (key : Word) :
    ∃ value, l.slot a key = .ok value := by
  unfold slot
  split
  · unfold slotOf
    split
    · exact ⟨_, rfl⟩
    · exact h.storage a key
    · exact ⟨_, rfl⟩
  · obtain ⟨record, hrecord⟩ := h.account a
    rw [hrecord]
    cases record with
    | none => exact ⟨0, rfl⟩
    | some _ => exact h.storage a key

theorem base_commit (l : Ledger) (changes : List (Address × AccountChange)) :
    (l.commit changes).base = l.base := by
  induction changes generalizing l with
  | nil => rfl
  | cons change rest ih => exact ih _

end Ledger

namespace Evm

/-! ### Reading -/

namespace Access

/-- The computation comes back, whatever state it starts in. -/
def Total {α : Type} (x : Access α) : Prop := ∀ s, ∃ result, x s = .ok result

variable {α β : Type}

private theorem Total.pure (a : α) : Total (pure a) := fun s => ⟨(a, s), rfl⟩

private theorem Total.bind {x : Access α} {f : α → Access β} (hx : x.Total)
    (hf : ∀ a, (f a).Total) : (x >>= f).Total := by
  intro s
  obtain ⟨⟨a, mid⟩, ha⟩ := hx s
  obtain ⟨result, hresult⟩ := hf a mid
  refine ⟨result, ?_⟩
  simp only [Bind.bind, StateT.bind, ha, Except.bind]
  exact hresult

private theorem Total.ite {c : Prop} [Decidable c] {x y : Access α} (hx : x.Total) (hy : y.Total) :
    (if c then x else y).Total := by
  split
  · exact hx
  · exact hy

private theorem Total.get : Total (get : Access State) := fun s => ⟨(s, s), rfl⟩

private theorem Total.lift {x : Except DbFault α} (hx : ∃ a, x = .ok a) : Total
    (liftM x : Access α) := by
  obtain ⟨a, rfl⟩ := hx
  exact fun s => ⟨(a, s), rfl⟩

private theorem Total.set (s : State) : Total (set s : Access PUnit) := fun _ => ⟨(⟨⟩, s), rfl⟩

private theorem Total.modify (f : State → State) : Total (modify f : Access PUnit) :=
  fun s => ⟨(⟨⟩, f s), rfl⟩

variable {e : Surroundings} (h : e.ledger.base.Answers)

include h in
private theorem load_total (a : Address) : (load e a).Total := by
  intro s
  unfold load
  split
  · split <;> exact ⟨_, rfl⟩
  · obtain ⟨record, hrecord⟩ := Ledger.account_of_answers h a
    rw [hrecord]
    dsimp only
    split <;> exact ⟨_, rfl⟩

include h in
private theorem loadCode_total (a : Address) : (loadCode e a).Total := by
  refine (load_total h a).bind fun cold => Total.get.bind fun s => ?_
  dsimp only
  split
  · exact Total.pure _
  · exact (Total.lift (Ledger.code_of_answers h _)).bind fun bytes =>
      (Total.modify _).bind fun _ => Total.pure _

include h in
private theorem readSlot_total (a : Address) (key : Word) : (readSlot e a key).Total := by
  intro s
  have hvalue : ∃ value, (if (s.holding a).created then .ok 0 else e.ledger.slot a key) =
      Except.ok (ε := DbFault) value := by
    split
    · exact ⟨0, rfl⟩
    · exact Ledger.slot_of_answers h a key
  obtain ⟨value, hvalue⟩ := hvalue
  unfold readSlot
  dsimp only
  split
  · split <;> exact ⟨_, rfl⟩
  · rw [hvalue]
    exact ⟨_, rfl⟩

include h in
private theorem writeSlot_total (a : Address) (key value : Word) :
    (writeSlot e a key value).Total := by
  refine (readSlot_total h a key).bind fun read => Total.get.bind fun s => ?_
  exact Total.ite ((Total.set _).bind fun _ => Total.pure _) (Total.pure _)

private theorem readTransient_total (a : Address) (key : Word) : (readTransient a key).Total :=
  fun _ => ⟨_, rfl⟩

private theorem writeTransient_total (a : Address) (key value : Word) :
    (writeTransient a key value).Total := by
  intro s
  unfold writeTransient
  dsimp only
  split <;> exact ⟨_, rfl⟩

include h in
private theorem destroy_total (a beneficiary : Address) : (destroy e a beneficiary).Total := by
  refine (load_total h beneficiary).bind fun cold => Total.get.bind fun _ =>
    Total.get.bind fun _ => ?_
  have hmoved (f : State → State) (d : Destruction) :
      (do modify f; pure d : Access Destruction).Total :=
    (Total.modify f).bind fun _ => Total.pure d
  refine Total.ite ((Total.modify _).bind fun _ => (Total.modify _).bind fun _ => ?_) ?_
  all_goals
    exact Total.get.bind fun _ => Total.ite (hmoved _ _) (Total.ite (hmoved _ _) (Total.pure _))

end Access

/-! ### Instructions -/

namespace Op

/-- No failed read ends the computation. -/
def Steady {α : Type} (x : Op α) : Prop := ∀ r cause after, x r ≠ .error (.fault cause) after

variable {α β : Type}

private theorem Steady.pure (a : α) : Steady (pure a) := fun _ _ _ h => by cases h

private theorem Steady.bind {x : Op α} {f : α → Op β} (hx : x.Steady) (hf : ∀ a, (f a).Steady) :
    (x >>= f).Steady := by
  intro r cause after h
  simp only [Bind.bind, EStateM.bind] at h
  cases hfirst : x r with
  | ok a mid =>
    rw [hfirst] at h
    exact hf a mid cause after h
  | error pause mid =>
    rw [hfirst] at h
    cases h
    exact hx r cause _ hfirst

private theorem Steady.ite {c : Prop} [Decidable c] {x y : Op α} (hx : x.Steady) (hy : y.Steady) :
    (if c then x else y).Steady := by
  split
  · exact hx
  · exact hy

private theorem Steady.get : Steady (get : Op Running) := fun _ _ _ h => by cases h

private theorem Steady.modify (f : Running → Running) : Steady (modify f : Op PUnit) :=
  fun _ _ _ h => by cases h

private theorem Steady.access {x : Access α} (hx : x.Total) : (access x).Steady := by
  intro r cause after h
  obtain ⟨⟨a, state⟩, hresult⟩ := hx r.state
  rw [Op.access, hresult] at h
  cases h

private theorem Steady.halt (exit : ExitCode) :
    (halt exit : Op α).Steady := fun _ _ _ h => by cases h

private theorem Steady.ended (exit : ExitCode) (output : Bytes) :
    Steady (throw (.ended exit output) : Op α) := fun _ _ _ h => by cases h

private theorem Steady.calls (request : CallRequest) : Steady (throw (.calls request) : Op α) :=
  fun _ _ _ h => by cases h

private theorem Steady.creates (request : CreateRequest) : Steady
    (throw (.creates request) : Op α) :=
  fun _ _ _ h => by cases h

private theorem Steady.view (f : Activation → α) :
    (view f).Steady := Steady.get.bind fun _ => Steady.pure _

private theorem Steady.update (f : Activation → Activation) : (update f).Steady := Steady.modify _

private theorem Steady.map {x : Op α} (f : α → β) (hx : x.Steady) : (f <$> x).Steady := by
  rw [map_eq_pure_bind]
  exact hx.bind fun _ => Steady.pure _

private theorem steady_chargeOr (exit : ExitCode) (cost : Nat) : (chargeOr exit cost).Steady := by
  intro r cause after h
  unfold chargeOr at h
  split at h <;> cases h

private theorem steady_charge (cost : Nat) : (charge cost).Steady := steady_chargeOr _ _

private theorem steady_pop : pop.Steady := by
  intro r cause after h
  unfold pop at h
  split at h <;> cases h

private theorem steady_push (w : Word) : (push w).Steady := by
  intro r cause after h
  unfold push at h
  split at h <;> cases h

private theorem steady_need (count : Nat) : (need count).Steady :=
  (Steady.view _).bind fun _ => Steady.ite (Steady.halt _) (Steady.pure _)

private theorem steady_sizeOr (exit : ExitCode) (w : Word) : (sizeOr exit w).Steady :=
  Steady.ite (Steady.pure _) (Steady.halt _)

private theorem steady_size (w : Word) : (size w).Steady := steady_sizeOr _ _

private theorem steady_expand (start length : Nat) : (expand start length).Steady :=
  (Steady.view _).bind fun _ =>
    Steady.ite ((steady_chargeOr _ _).bind fun _ => Steady.update _) (Steady.pure _)

private theorem steady_range (start : Word) (length : Nat) : (range start length).Steady :=
  Steady.ite (Steady.pure _) <|
    (steady_size start).bind fun _ => (steady_expand _ _).bind fun _ => Steady.pure _

private theorem steady_bytes (start : Word) (length : Nat) : (bytes start length).Steady :=
  Steady.ite (Steady.pure _) <| (steady_range start length).bind fun _ => Steady.view _

private theorem steady_write (start : Nat) (bytes : Bytes) :
    (write start bytes).Steady := Steady.update _

private theorem steady_needChanges : needChanges.Steady :=
  (Steady.view _).bind fun _ => Steady.ite (Steady.halt _) (Steady.pure _)

private theorem steady_copy (target : Word) (source : Bytes) (start : Word) (length : Nat) :
    (copy target source start length).Steady :=
  Steady.ite (Steady.pure _) <| (steady_range target length).bind fun _ => steady_write _ _

private theorem steady_copyPriced (target : Word) (source : Bytes) (start : Word) (length : Nat) :
    (copyPriced target source start length).Steady :=
  (steady_charge _).bind fun _ => steady_copy _ _ _ _

private theorem steady_look {found : Address → Access (Word × Bool)}
    (hfound : ∀ a, (found a).Total) : (look found).Steady :=
  steady_pop.bind fun _ => (Steady.access (hfound _)).bind fun _ =>
    (steady_charge _).bind fun _ => steady_push _

private theorem steady_jumpTo : jumpTo.Steady :=
  (steady_charge _).bind fun _ => steady_pop.bind fun w => (steady_sizeOr _ w).bind fun _ =>
    (Steady.view _).bind fun _ =>
      Steady.ite (Steady.update _) ((Steady.halt _).bind fun _ => Steady.update _)

private theorem steady_popMany (count : Nat) : (popMany count).Steady := by
  induction count with
  | zero => exact Steady.pure _
  | succ count ih => exact steady_pop.bind fun _ => ih.bind fun _ => Steady.pure _

private theorem steady_emit (topics : Nat) : (emit topics).Steady :=
  steady_needChanges.bind fun _ => (steady_need 2).bind fun _ => steady_pop.bind fun _ =>
    steady_pop.bind fun w => (steady_size w).bind fun _ => (steady_charge _).bind fun _ =>
      (steady_bytes _ _).bind fun _ => (steady_need _).bind fun _ => (Steady.view _).bind fun _ =>
        (steady_popMany _).bind fun _ => Steady.modify _

private theorem steady_finish (exit : ExitCode) : (finish exit).Steady :=
  (steady_need 2).bind fun _ => steady_pop.bind fun _ => steady_pop.bind fun w =>
    (steady_size w).bind fun _ => (steady_bytes _ _).bind fun _ => Steady.ended _ _

private theorem steady_creation (e : Surroundings) (salted : Bool) :
    (creation e salted).Steady := by
  refine steady_needChanges.bind fun _ => (steady_need 3).bind fun _ => steady_pop.bind fun _ =>
    steady_pop.bind fun _ => steady_pop.bind fun w => (steady_size w).bind fun _ => ?_
  refine Steady.ite (Steady.ite ((Steady.halt _).bind fun _ => (steady_charge _).bind fun _ => ?_)
    ((steady_charge _).bind fun _ => ?_)) ?_
  all_goals
    refine (steady_bytes _ _).bind fun _ =>
      Steady.ite ((Steady.map _ steady_pop).bind fun _ => ?_) ((Steady.pure _).bind fun _ => ?_)
  all_goals
    exact (steady_charge _).bind fun _ => (Steady.view _).bind fun _ =>
      (steady_charge _).bind fun _ => (Steady.view _).bind fun _ => Steady.creates _

section Reading

variable {e : Surroundings} (h : e.ledger.base.Answers)

include h in
private theorem steady_store : (store e).Steady :=
  steady_needChanges.bind fun _ => steady_pop.bind fun _ => steady_pop.bind fun _ =>
    (Steady.view _).bind fun _ => (Steady.access (Access.writeSlot_total h _ _ _)).bind fun _ =>
      (Steady.view _).bind fun _ =>
        Steady.ite ((Steady.halt _).bind fun _ => (steady_charge _).bind fun _ => Steady.update _)
          ((steady_charge _).bind fun _ => Steady.update _)

include h in
private theorem steady_destruction : (destruction e).Steady :=
  steady_needChanges.bind fun _ => steady_pop.bind fun _ => (Steady.view _).bind fun _ =>
    (Steady.access (Access.destroy_total h _ _)).bind fun _ =>
      Steady.ite ((steady_charge _).bind fun _ => Steady.halt _)
        ((Steady.update _).bind fun _ => (steady_charge _).bind fun _ => Steady.halt _)

include h in
private theorem steady_calling (form : CallForm) : (calling e form).Steady := by
  have hcode (a : Address) : (access (Access.loadCode e a)).Steady :=
    Steady.access (Access.loadCode_total h a)
  -- whether a value is taken, whether the call is forbidden and whether code is loaded
  refine (steady_need _).bind fun _ => steady_pop.bind fun _ => steady_pop.bind fun _ =>
    Steady.ite (steady_pop.bind fun _ => ?_) ((Steady.pure _).bind fun _ => ?_)
  all_goals refine Steady.get.bind fun _ => Steady.ite ((Steady.halt _).bind fun _ => ?_) ?_
  all_goals
    refine (steady_need _).bind fun _ => steady_pop.bind fun _ => steady_pop.bind fun _ =>
      steady_pop.bind fun _ => steady_pop.bind fun _ => (steady_size _).bind fun _ =>
        (steady_bytes _ _).bind fun _ => (steady_size _).bind fun _ =>
          (steady_range _ _).bind fun _ => (Steady.access (Access.load_total h _)).bind fun _ =>
            Steady.ite ((Steady.map _ (hcode _)).bind fun _ => ?_) ?_
  all_goals
    refine Steady.get.bind fun _ => (steady_charge _).bind fun _ => (Steady.view _).bind fun _ =>
      (steady_charge _).bind fun _ => ?_
    cases form <;> exact Steady.calls _

include h in
private theorem steady_execute (i : Instruction) : (execute e i).Steady := by
  cases i with
  | add =>
    exact (steady_charge _).bind fun _ => (steady_need _).bind fun _ => steady_pop.bind fun _ =>
      steady_pop.bind fun _ => steady_push _
  | shiftLeft =>
    exact (steady_charge _).bind fun _ => (steady_need _).bind fun _ => steady_pop.bind fun _ =>
      steady_pop.bind fun _ => steady_push _
  | balance =>
    exact steady_look fun a => (Access.load_total h a).bind fun _ => Access.Total.get.bind fun _ =>
      Access.Total.pure _
  | codeSizeOf =>
    exact steady_look fun a => (Access.loadCode_total h a).bind fun _ => Access.Total.pure _
  | codeHashOf =>
    exact steady_look fun a => (Access.loadCode_total h a).bind fun _ =>
      Access.Total.get.bind fun _ => Access.Total.pure _
  | codeCopyOf =>
    exact (steady_need _).bind fun _ => steady_pop.bind fun _ => steady_pop.bind fun _ =>
      steady_pop.bind fun _ => steady_pop.bind fun _ =>
        (Steady.access (Access.loadCode_total h _)).bind fun _ => (steady_size _).bind fun _ =>
          (steady_charge _).bind fun _ => steady_copy _ _ _ _
  | codeCopy =>
    exact (steady_need _).bind fun _ => steady_pop.bind fun _ => steady_pop.bind fun _ =>
      steady_pop.bind fun _ => (steady_size _).bind fun _ => (Steady.view _).bind fun _ =>
        steady_copyPriced _ _ _ _
  | returnDataCopy =>
    exact (steady_need _).bind fun _ => steady_pop.bind fun _ => steady_pop.bind fun _ =>
      steady_pop.bind fun _ => (steady_size _).bind fun _ => (Steady.view _).bind fun _ =>
        Steady.ite ((Steady.halt _).bind fun _ => steady_copyPriced _ _ _ _)
          (steady_copyPriced _ _ _ _)
  | pop => exact (steady_charge _).bind fun _ => Steady.map _ steady_pop
  | memoryLoad =>
    exact (steady_charge _).bind fun _ => steady_pop.bind fun _ => (steady_size _).bind fun _ =>
      (steady_expand _ _).bind fun _ => (Steady.view _).bind fun _ => steady_push _
  | memoryStore =>
    exact (steady_charge _).bind fun _ => (steady_need _).bind fun _ => steady_pop.bind fun _ =>
      (steady_size _).bind fun _ => steady_pop.bind fun _ => (steady_expand _ _).bind fun _ =>
        steady_write _ _
  | slotLoad =>
    exact steady_pop.bind fun _ => (Steady.view _).bind fun _ =>
      (Steady.access (Access.readSlot_total h _ _)).bind fun _ => (steady_charge _).bind fun _ =>
        steady_push _
  | slotStore => exact steady_store h
  | jump => exact steady_jumpTo
  | gas => exact (steady_charge _).bind fun _ => (Steady.view _).bind fun _ => steady_push _
  | jumpTarget => exact steady_charge _
  | transientLoad =>
    exact (steady_charge _).bind fun _ => steady_pop.bind fun _ => (Steady.view _).bind fun _ =>
      (Steady.access (Access.readTransient_total _ _)).bind fun _ => steady_push _
  | transientStore =>
    exact steady_needChanges.bind fun _ => (steady_charge _).bind fun _ =>
      (steady_need _).bind fun _ => steady_pop.bind fun _ => steady_pop.bind fun _ =>
        (Steady.view _).bind fun _ => Steady.access (Access.writeTransient_total _ _ _)
  | push width =>
    exact (steady_charge _).bind fun _ => Steady.get.bind fun _ => (steady_push _).bind fun _ =>
      Steady.update _
  | log topics => exact steady_emit topics
  | create salted => exact steady_creation e salted
  | call form => exact steady_calling h form
  | giveBack => exact steady_finish _
  | revert => exact steady_finish _
  | selfDestruct => exact steady_destruction h
  | stop => exact Steady.halt _
  | invalid => exact Steady.halt _
  | contained => exact Steady.halt _
  | returnContract => exact Steady.halt _
  | undefined => exact Steady.halt _

include h in
theorem steady_step (i : Instruction) : (step e i).Steady :=
  (Steady.update _).bind fun _ => Steady.ite (steady_execute h i) (Steady.halt _)

end Reading

end Op
end Evm
end ExecutionTrace
