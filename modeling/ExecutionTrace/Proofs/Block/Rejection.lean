import ExecutionTrace.Proofs.Block.Selection
import ExecutionTrace.Proofs.Evm.Waiting

/-! Rejected transactions of a batch. What lasts of one is at most the failed read that it leaves
waiting, or the one that it took with it. If what waits stays as it was, then the batch without the
rejected transaction goes as it does with it. -/
namespace ExecutionTrace

/-- Above a database all of whose reads come back, no failed read waits after a transaction if none
waited before it. -/
def Engine.Quiet (engine : Engine) : Prop :=
  ∀ fork block (ledger : Ledger) t, ledger.base.Answers → (engine fork block ledger t).Quiet

namespace Session

section Engines

variable (engine : Engine)

def Rejects (s : Session) (t : Evm.Transaction) : Prop :=
  ∃ err deferred, engine s.fork s.block s.ledger t s.deferred = .error err deferred

/-- The transaction is not executed, and what waited before it waits after it. -/
def RejectsUnseen (s : Session) (t : Evm.Transaction) : Prop :=
  ∃ err, engine s.fork s.block s.ledger t s.deferred = .error err s.deferred

abbrev Marked := List (Evm.Transaction × Bool)

def Marked.all (marked : Marked) : List Evm.Transaction := marked.map (·.1)

def Marked.kept (marked : Marked) : List Evm.Transaction := (marked.filter (·.2)).map (·.1)

def Marked.without (first : List Evm.Transaction) (t : Evm.Transaction)
    (rest : List Evm.Transaction) : Marked :=
  first.map (·, true) ++ (t, false) :: rest.map (·, true)

/-- All transactions that are not kept have a property, each in the session in which it runs. -/
def Deleted (holds : Session → Evm.Transaction → Prop) (s : Session) (marked : Marked) : Prop :=
  ∀ first t rest, marked = first ++ (t, false) :: rest →
    holds ((Marked.all first).foldl (executed engine) s) t

/-- Without the transactions that are not kept, the batch ends in the same session, and all other
transactions have the same entries. -/
structure Undisturbed (o : Options) (s : Session) (block : BlockEnv) (marked : Marked) : Prop where
  session : (s.trace engine o ⟨block, marked.kept⟩).1 = (s.trace engine o ⟨block, marked.all⟩).1
  before : (s.trace engine o ⟨block, marked.all⟩).2 =
    ((marked.zip (entries engine o { s with block } marked.all)).filter
      (o.selects ·.1.1.hash)).map (·.2)
  after : (s.trace engine o ⟨block, marked.kept⟩).2 =
    ((marked.zip (entries engine o { s with block } marked.all)).filter
      fun p => o.selects p.1.1.hash && p.1.2).map (·.2)

private theorem deleted_cons (holds : Session → Evm.Transaction → Prop) (s : Session)
    (t : Evm.Transaction) (kept : Bool) (rest : Marked) :
    Deleted engine holds s ((t, kept) :: rest) ↔
      (kept = false → holds s t) ∧ Deleted engine holds (s.executed engine t) rest := by
  constructor
  · intro h
    refine ⟨?_, fun first t' rest' hrest => ?_⟩
    · rintro rfl
      exact h [] t rest rfl
    · exact h ((t, kept) :: first) t' rest' (by rw [hrest]; rfl)
  · rintro ⟨hfirst, hrest⟩ first t' rest' hmarked
    cases first with
    | nil =>
      cases hmarked
      exact hfirst rfl
    | cons head first =>
      obtain ⟨rfl, htail⟩ := List.cons.inj hmarked
      exact hrest first t' rest' htail

private theorem deleted_nil (holds : Session → Evm.Transaction → Prop) (s : Session) :
    Deleted engine holds s [] := by
  intro first t rest h
  cases first <;> cases h

private theorem deleted_none (holds : Session → Evm.Transaction → Prop) (s : Session)
    (ts : List Evm.Transaction) : Deleted engine holds s (ts.map (·, true)) := by
  induction ts generalizing s with
  | nil => exact deleted_nil engine holds s
  | cons t rest ih => exact (deleted_cons engine holds s t true _).mpr ⟨nofun, ih _⟩

theorem deleted_without (holds : Session → Evm.Transaction → Prop) (s : Session)
    (first : List Evm.Transaction) (t : Evm.Transaction) (rest : List Evm.Transaction) :
    Deleted engine holds s (Marked.without first t rest) ↔
      holds (first.foldl (executed engine) s) t := by
  induction first generalizing s with
  | nil =>
    refine (deleted_cons engine holds s t false _).trans ⟨fun h => h.1 rfl, fun h => ?_⟩
    exact ⟨fun _ => h, deleted_none engine holds _ rest⟩
  | cons head first ih =>
    refine (deleted_cons engine holds s head true _).trans ?_
    exact (and_iff_right nofun).trans (ih (s.executed engine head))

private theorem Deleted.mono {holds holds' : Session → Evm.Transaction → Prop} {s : Session}
    {marked : Marked} (h : Deleted engine holds s marked)
    (himp : ∀ first t, holds (List.foldl (executed engine) s first) t →
      holds' (List.foldl (executed engine) s first) t) :
    Deleted engine holds' s marked :=
  fun first t rest hmarked => himp _ t (h first t rest hmarked)

private theorem executed_of_rejectsUnseen {s : Session} {t : Evm.Transaction}
    (h : RejectsUnseen engine s t) : s.executed engine t = s := by
  obtain ⟨err, herr⟩ := h
  rw [executed, herr]

/-- The transactions that are kept have the entries that they have beside the others. -/
private theorem zip_entries_kept (o : Options) (s : Session) {marked : Marked}
    (h : Deleted engine (RejectsUnseen engine) s marked) :
    (Marked.kept marked).foldl (executed engine) s =
        (Marked.all marked).foldl (executed engine) s ∧
      (Marked.kept marked).zip (entries engine o s marked.kept) =
        ((marked.zip (entries engine o s marked.all)).filter (·.1.2)).map
          fun p => (p.1.1, p.2) := by
  induction marked generalizing s with
  | nil => exact ⟨rfl, rfl⟩
  | cons first rest ih =>
    obtain ⟨t, kept⟩ := first
    obtain ⟨hfirst, hrest⟩ := (deleted_cons engine _ s t kept rest).mp h
    obtain ⟨hsession, hentries⟩ := ih (s.executed engine t) hrest
    cases kept with
    | true => exact ⟨hsession, congrArg (List.cons (t, s.entry engine o t)) hentries⟩
    | false =>
      have hall : Marked.all ((t, false) :: rest) = t :: Marked.all rest := rfl
      have hsame := executed_of_rejectsUnseen engine (hfirst rfl)
      rw [hsame] at hsession hentries
      refine ⟨hsession.trans ?_, hentries.trans ?_⟩
      · rw [hall, List.foldl_cons, hsame]
      · rw [hall, entries, hsame]
        rfl

theorem undisturbed_of_unseen {o : Options} (h : o.Registered) (s : Session) (block : BlockEnv)
    {marked : Marked} (hdeleted : Deleted engine (RejectsUnseen engine) { s with block } marked) :
    Undisturbed engine o s block marked := by
  obtain ⟨hsession, hentries⟩ := zip_entries_kept engine o { s with block } hdeleted
  have hall : (Marked.all marked).zip (entries engine o { s with block } marked.all) =
      (marked.zip (entries engine o { s with block } marked.all)).map fun p => (p.1.1, p.2) :=
    List.zip_map_left ..
  refine ⟨?_, ?_, ?_⟩
  · rw [trace_of_registered engine h, trace_of_registered engine h]
    exact hsession
  · rw [trace_of_registered engine h]
    simp only [hall, List.filter_map, List.map_map]
    rfl
  · rw [trace_of_registered engine h]
    simp only [hentries, List.filter_map, List.map_map, List.filter_filter]
    rfl

/-- If the session at the end is the same without a rejected transaction, then what waited before it
waits after it. -/
private theorem unseen_of_undisturbed {o : Options} (h : o.Registered) {s : Session}
    {block : BlockEnv} {first : List Evm.Transaction} {t : Evm.Transaction}
    (ht : Rejects engine (first.foldl (executed engine) { s with block }) t)
    (hsame : Undisturbed engine o s block (Marked.without first t [])) :
    RejectsUnseen engine (first.foldl (executed engine) { s with block }) t := by
  have hkept : (Marked.without first t []).kept = first := by
    simp [Marked.without, Marked.kept, List.filter_map, Function.comp_def]
  have hall : (Marked.without first t []).all = first ++ [t] := by
    simp [Marked.without, Marked.all, Function.comp_def]
  have hsession := hsame.session
  rw [hkept, hall, trace_of_registered engine h, trace_of_registered engine h,
    List.foldl_append] at hsession
  obtain ⟨err, deferred, herr⟩ := ht
  have hafter : executed engine (first.foldl (executed engine) { s with block }) t =
      { first.foldl (executed engine) { s with block } with deferred } := by
    rw [executed, herr]
  refine ⟨err, ?_⟩
  rw [herr]
  exact congrArg _ (congrArg Session.deferred (hafter.symm.trans hsession.symm))

private theorem block_foldl_executed (s : Session) (ts : List Evm.Transaction) :
    (ts.foldl (executed engine) s).block = s.block := by
  induction ts generalizing s with
  | nil => rfl
  | cons t rest ih =>
    have hblock : (s.executed engine t).block = s.block := by
      unfold executed
      split <;> rfl
    exact (ih _).trans hblock

omit engine in
private theorem with_block {s : Session} {block : BlockEnv} (h : s.block = block) :
    { s with block } = s := by
  rw [← h]

theorem trace_append {o : Options} (h : o.Registered) (s : Session) (block : BlockEnv)
    (first second : List Evm.Transaction) :
    s.trace engine o ⟨block, first ++ second⟩ =
      (((s.trace engine o ⟨block, first⟩).1.trace engine o ⟨block, second⟩).1,
        (s.trace engine o ⟨block, first⟩).2 ++
          ((s.trace engine o ⟨block, first⟩).1.trace engine o ⟨block, second⟩).2) := by
  obtain ⟨name, hname⟩ := Option.isSome_iff_exists.mp h
  have hblock := block_foldl_executed engine { s with block } first
  rw [← fst_transactions engine o] at hblock
  simp only [trace, run, hname, transactions_append, List.filterMap_append]
  rw [with_block hblock]

/-! ### Engines that leave no failed read behind -/

/-- Every read of the database comes back, and no failed one waits. -/
structure Clear (s : Session) : Prop where
  answers : s.ledger.base.Answers
  nothing : s.deferred = none

variable {engine} (hquiet : engine.Quiet)

include hquiet in
private theorem rejectsUnseen_of_clear {s : Session} (h : s.Clear) {t : Evm.Transaction}
    (ht : Rejects engine s t) : RejectsUnseen engine s t := by
  obtain ⟨err, deferred, herr⟩ := ht
  have hnone := hquiet s.fork s.block s.ledger t h.answers
  rw [h.nothing] at herr
  rw [Evm.Deferring.Quiet, herr] at hnone
  refine ⟨err, ?_⟩
  rw [h.nothing, herr, hnone]

include hquiet in
private theorem clear_executed {s : Session} (h : s.Clear) (t : Evm.Transaction) :
    (s.executed engine t).Clear := by
  have hnone := hquiet s.fork s.block s.ledger t h.answers
  unfold executed
  rw [Evm.Deferring.Quiet] at hnone
  rw [h.nothing]
  split
  · next herr =>
    rw [herr] at hnone
    exact ⟨h.answers, hnone⟩
  · next x deferred hx =>
    rw [hx] at hnone
    exact ⟨(Ledger.base_commit s.ledger x.changes).symm ▸ h.answers, hnone⟩

include hquiet in
private theorem clear_foldl {s : Session} (h : s.Clear) (ts : List Evm.Transaction) :
    (ts.foldl (executed engine) s).Clear := by
  induction ts generalizing s with
  | nil => exact h
  | cons t rest ih => exact ih (clear_executed hquiet h t)

end Engines

/-- Rejected transactions can be deleted from a batch if each of them leaves what waits as it found
it; nothing else changes. One of them can be deleted, whatever comes after it, only if it does so.
All of them do so if every read of the database comes back, no failed read waits from earlier and
the engine is quiet, and then none waits after the batch. A batch can be divided anywhere. -/
theorem trace_without_rejected (engine : Engine) {o : Options} (h : o.Registered) (s : Session)
    (block : BlockEnv) :
    (∀ marked : Marked, Deleted engine (RejectsUnseen engine) { s with block } marked →
      Undisturbed engine o s block marked) ∧
    (∀ first t, Rejects engine (first.foldl (executed engine) { s with block }) t →
      ((∀ rest, Undisturbed engine o s block (Marked.without first t rest)) ↔
        RejectsUnseen engine (first.foldl (executed engine) { s with block }) t)) ∧
    (engine.Quiet → s.Clear → (∀ ts, (s.trace engine o ⟨block, ts⟩).1.Clear) ∧
      ∀ marked : Marked, Deleted engine (Rejects engine) { s with block } marked →
        Undisturbed engine o s block marked) ∧
    ∀ first second : List Evm.Transaction,
      s.trace engine o ⟨block, first ++ second⟩ =
        (((s.trace engine o ⟨block, first⟩).1.trace engine o ⟨block, second⟩).1,
          (s.trace engine o ⟨block, first⟩).2 ++
            ((s.trace engine o ⟨block, first⟩).1.trace engine o ⟨block, second⟩).2) := by
  refine ⟨fun marked => undisturbed_of_unseen engine h s block,
    fun first t ht => ⟨fun hall => unseen_of_undisturbed engine h ht (hall []),
      fun hunseen rest => ?_⟩,
    fun hquiet hclear => ?_, trace_append engine h s block⟩
  · have hdeleted := (deleted_without engine _ { s with block } first t rest).mpr hunseen
    exact undisturbed_of_unseen engine h s block hdeleted
  · have hblock : Clear { s with block } := ⟨hclear.answers, hclear.nothing⟩
    refine ⟨fun ts => ?_, fun marked hdeleted => ?_⟩
    · rw [trace_of_registered engine h]
      exact clear_foldl hquiet hblock ts
    · have hunseen : Deleted engine (RejectsUnseen engine) { s with block } marked :=
        hdeleted.mono engine fun first t ht =>
          rejectsUnseen_of_clear hquiet (clear_foldl hquiet hblock first) ht
      exact undisturbed_of_unseen engine h s block hunseen

/-! ### The engine that executes code -/

theorem quiet_evm : Engine.evm.Quiet :=
  fun fork block ledger t h =>
    Evm.Transaction.quiet_execute (e := ⟨fork, ledger, block.coinbase⟩) h _ t

private def sponsor : Address := 0xc255fc198eedac7af8af0f6e0ca781794b094a61

private def paying (hash value : Word) : Evm.Transaction :=
  { hash, sender := sponsor, target := some 0xd878229c9c3575f224784de610911b5607a3ad15, value
    input := [], gasLimit := 30000, gasPrice := 0 }

private def funded : Database where
  account a :=
    .ok (if a = sponsor then some { balance := 1000, nonce := 0, codeHash := 0, code := none }
      else none)
  code _ := .ok []
  storage _ _ := .ok 0

private theorem clear_funded : (start .cancun funded).Clear :=
  ⟨⟨fun _ => ⟨_, rfl⟩, fun _ => ⟨_, rfl⟩, fun _ _ => ⟨_, rfl⟩⟩, rfl⟩

/-- A payment that the sender has no funds for, between two others. -/
private def overdraft : Marked := [(paying 1 5, true), (paying 2 996, false), (paying 3 6, true)]

theorem trace_without_overdraft :
    Undisturbed Engine.evm { tracer := "callTracer" } (start .cancun funded) { number := 1 }
      overdraft := by
  obtain ⟨_, _, hquiet, _⟩ := trace_without_rejected Engine.evm (o := { tracer := "callTracer" })
    rfl (start .cancun funded) { number := 1 }
  obtain ⟨_, hundisturbed⟩ := hquiet quiet_evm clear_funded
  refine hundisturbed overdraft ?_
  rw [overdraft, deleted_cons, deleted_cons, deleted_cons]
  exact ⟨nofun, fun _ => ⟨_, _, rfl⟩, nofun, deleted_nil _ _ _⟩

/-- A database in which the account of a coinbase and the storage of a contract cannot be read. The
contract loads a slot. -/
private def damaged : Database where
  account a :=
    if a = 0xc0ffee then .error .accountUnavailable
    else if a = 0x1010101010101010101010101010101010101001 then
      .ok (some
        { balance := 0, nonce := 0, codeHash := 1, code := some [0x60, 0x01, 0x54, 0x50, 0] })
    else if a = sponsor then
      .ok (some { balance := 1000, nonce := 0, codeHash := 0, code := none })
    else .ok none
  code _ := .ok []
  storage _ _ := .error .storageUnavailable

private def loading : Evm.Transaction :=
  { hash := 1, sender := sponsor, target := some 0x1010101010101010101010101010101010101001
    value := 0, input := [], gasLimit := 30000, gasPrice := 0 }

/-- The session after a batch of one transaction, which is rejected for the coinbase. -/
private def afterLoading : Session :=
  ((start .cancun damaged).trace Engine.evm { tracer := "callTracer" }
    ⟨{ number := 1, timestamp := 1, coinbase := 0xc0ffee }, [loading]⟩).1

private def nextBlock : BlockEnv := { number := 2, timestamp := 2, coinbase := 0x5e11 }

set_option maxRecDepth 2000 in
/-- A failed read that a rejected transaction left waiting rejects the first transaction of the next
batch. Without that one it rejects the second, which is executed otherwise. -/
theorem deletion_disturbs :
    Rejects Engine.evm { afterLoading with block := nextBlock } (paying 2 5) ∧
      (∃ trace, (afterLoading.trace Engine.evm { tracer := "callTracer" }
          ⟨nextBlock, [paying 2 5, paying 3 6]⟩).2 =
        [.error (.rejected 2 (.database .storageUnavailable)), .ok trace]) ∧
      (afterLoading.trace Engine.evm { tracer := "callTracer" } ⟨nextBlock, [paying 3 6]⟩).2 =
        [.error (.rejected 3 (.database .storageUnavailable))] ∧
      ¬Undisturbed Engine.evm { tracer := "callTracer" } afterLoading nextBlock
        [(paying 2 5, false), (paying 3 6, true)] := by
  have halone : (afterLoading.trace Engine.evm { tracer := "callTracer" }
      ⟨nextBlock, [paying 3 6]⟩).2 = [.error (.rejected 3 (.database .storageUnavailable))] := rfl
  have hentries : ∃ trace, entries Engine.evm { tracer := "callTracer" }
      { afterLoading with block := nextBlock } [paying 2 5, paying 3 6] =
        [.error (.rejected 2 (.database .storageUnavailable)), .ok trace] := ⟨_, rfl⟩
  refine ⟨⟨_, _, rfl⟩, ⟨_, rfl⟩, halone, fun h => ?_⟩
  obtain ⟨trace, htrace⟩ := hentries
  have hkept := halone.symm.trans h.after
  have hall : Marked.all [(paying 2 5, false), (paying 3 6, true)] = [paying 2 5, paying 3 6] := rfl
  rw [hall, htrace] at hkept
  cases hkept

end Session
end ExecutionTrace
