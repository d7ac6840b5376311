import ExecutionTrace.Block

/-! What the options of a trace decide when a batch is traced, and what they do not. They choose the
transactions that are reported and what is reported of each. What is executed and committed is the
same for all of them. -/
namespace ExecutionTrace

def Options.Registered (o : Options) : Prop := (TracerName.ofText? o.tracer).isSome = true

namespace Session

variable (engine : Engine)

/-- The session after a transaction was executed and, unless it was rejected, committed. -/
def executed (s : Session) (t : Evm.Transaction) : Session :=
  match engine s.fork s.block s.ledger t s.deferred with
  | .error _ deferred => { s with deferred }
  | .ok x deferred => { s.committed x with deferred }

/-- The entry of a transaction that is asked for: why it is rejected, or else its trace or why
there is none. -/
def entry (o : Options) (s : Session) (t : Evm.Transaction) : Except TraceError TxTrace :=
  match engine s.fork s.block s.ledger t s.deferred with
  | .error err _ => .error err
  | .ok x _ => s.replay o t x

/-- The entries of transactions that are all asked for, each executed on what the ones before it
left. -/
def entries (o : Options) (s : Session) : List Evm.Transaction → List (Except TraceError TxTrace)
  | [] => []
  | t :: rest => s.entry engine o t :: (s.executed engine t).entries o rest

theorem traceTransaction_eq (o : Options) (s : Session) (t : Evm.Transaction) :
    s.traceTransaction engine o t = (s.executed engine t, s.entry engine o t) := by
  unfold traceTransaction execute executed entry
  cases engine s.fork s.block s.ledger t s.deferred <;> rfl

private theorem fst_executeTransaction (s : Session) (t : Evm.Transaction) :
    (s.executeTransaction engine t).1 = s.executed engine t := by
  unfold executeTransaction execute executed
  cases engine s.fork s.block s.ledger t s.deferred <;> rfl

/-- A transaction leaves the same session whether or not it is asked for. -/
theorem transaction_eq (o : Options) (s : Session) (t : Evm.Transaction) :
    (s.transaction engine o t).1 = s.executed engine t ∧
      Report.entry? (s.transaction engine o t).2 =
        if o.selects t.hash then some (s.entry engine o t) else none := by
  unfold transaction
  split
  · rw [traceTransaction_eq]
    exact ⟨rfl, rfl⟩
  · exact ⟨fst_executeTransaction engine s t, rfl⟩

theorem fst_transactions (o : Options) (s : Session) (ts : List Evm.Transaction) :
    (s.transactions engine o ts).1 = ts.foldl (executed engine) s := by
  induction ts generalizing s with
  | nil => rfl
  | cons t rest ih =>
    rw [transactions, List.foldl_cons, ← (transaction_eq engine o s t).1]
    exact ih _

private theorem length_entries (o : Options) (s : Session) (ts : List Evm.Transaction) :
    (s.entries engine o ts).length = ts.length := by
  induction ts generalizing s with
  | nil => rfl
  | cons t rest ih => rw [entries, List.length_cons, ih, List.length_cons]

private theorem filterMap_transactions (o : Options) (s : Session) (ts : List Evm.Transaction) :
    (s.transactions engine o ts).2.filterMap Report.entry? =
      ((ts.zip (s.entries engine o ts)).filter (o.selects ·.1.hash)).map (·.2) := by
  induction ts generalizing s with
  | nil => rfl
  | cons t rest ih =>
    obtain ⟨hsession, hreport⟩ := transaction_eq engine o s t
    have hrest := ih (s.executed engine t)
    rw [← hsession] at hrest
    rw [transactions, entries, List.zip_cons_cons, List.filterMap_cons, hreport, ← hsession]
    cases hselects : o.selects t.hash with
    | false => simpa [hselects] using hrest
    | true => simpa [hselects] using hrest

private theorem entries_of_filter (o : Options) (filter : Option Word) (s : Session)
    (ts : List Evm.Transaction) :
    s.entries engine { o with txHash := filter } ts = s.entries engine o ts := by
  induction ts generalizing s with
  | nil => rfl
  | cons t rest ih =>
    rw [entries, entries, ih]
    rfl

private theorem hash_of_replay {s : Session} {o : Options} {t : Evm.Transaction} {x : Evm.Execution}
    {trace : TxTrace} (h : s.replay o t x = .ok trace) : trace.hash = t.hash := by
  simp only [replay, bind, Except.bind, pure, Except.pure] at h
  -- a trace that does not start, one that refuses an event, one without a result, and the rest
  split at h
  · cases h
  · split at h
    · cases h
    · split at h
      · cases h
      · cases h
        rfl

private theorem hash_of_mem_entries {o : Options} {s : Session} {ts : List Evm.Transaction}
    {t : Evm.Transaction} {trace : TxTrace} (h : (t, .ok trace) ∈ ts.zip (s.entries engine o ts)) :
    trace.hash = t.hash := by
  induction ts generalizing s with
  | nil => cases h
  | cons first rest ih =>
    rw [entries, List.zip_cons_cons] at h
    rcases List.mem_cons.mp h with heq | hmem
    · obtain ⟨rfl, hentry⟩ := Prod.mk.inj heq
      unfold entry at hentry
      split at hentry
      · cases hentry
      · exact hash_of_replay hentry.symm
    · exact ih hmem

theorem trace_of_registered {o : Options} (h : o.Registered) (s : Session) (batch : Batch) :
    s.trace engine o batch =
      (batch.transactions.foldl (executed engine) { s with block := batch.block },
        ((batch.transactions.zip
            (entries engine o { s with block := batch.block } batch.transactions)).filter
          (o.selects ·.1.hash)).map (·.2)) := by
  obtain ⟨name, hname⟩ := Option.isSome_iff_exists.mp h
  rw [trace, run, hname]
  exact Prod.ext (fst_transactions engine o _ _) (filterMap_transactions engine o _ _)

theorem trace_of_not_registered {o : Options} (h : ¬o.Registered) (s : Session) (batch : Batch) :
    s.trace engine o batch = (s, [.error (.unknownTracer o.tracer)]) := by
  have hname : TracerName.ofText? o.tracer = none := by
    simpa [Options.Registered] using h
  rw [trace, run, hname]
  rfl

/-- Without a filter there is one entry for each transaction, in their order. -/
theorem trace_unfiltered {o : Options} (h : o.Registered) (s : Session) (batch : Batch) :
    (s.trace engine { o with txHash := none } batch).2 =
      entries engine o { s with block := batch.block } batch.transactions := by
  have hall (p : Evm.Transaction × Except TraceError TxTrace) :
      ({ o with txHash := none } : Options).selects p.1.hash = true := rfl
  have hlength := length_entries engine o { s with block := batch.block } batch.transactions
  rw [trace_of_registered engine (o := { o with txHash := none }) h, entries_of_filter,
    List.filter_eq_self.mpr fun p _ => hall p]
  exact List.map_snd_zip (Nat.le_of_eq hlength)

/-- Whatever is traced, how, and with what success, the ledger ends up the same. A filter takes, of
the entries that there are without it, those at the transactions with its hash. Each entry is of
the transaction at its place, executed on what the ones before it left. With a name that no trace
has, there is a single error and nothing changes.

The engine is any function of hardfork, block, ledger, transaction and the failed read that waits;
one that does not look at the last is a case of it. -/
theorem trace_of_options (s : Session) (batch : Batch) :
    (∀ o o' : Options, o.Registered → o'.Registered →
      (s.trace engine o batch).1 = (s.trace engine o' batch).1) ∧
    (∀ (o : Options) (hash : Word), o.Registered →
      ∃ all, (s.trace engine { o with txHash := none } batch).2 = all ∧
        (s.trace engine { o with txHash := some hash } batch).2 =
          ((batch.transactions.zip all).filter (·.1.hash = hash)).map (·.2) ∧
        all = entries engine o { s with block := batch.block } batch.transactions ∧
        all.length = batch.transactions.length ∧
        ∀ t trace, (t, .ok trace) ∈ batch.transactions.zip all → trace.hash = t.hash) ∧
    ∀ o : Options, ¬o.Registered →
      s.trace engine o batch = (s, [.error (.unknownTracer o.tracer)]) := by
  refine ⟨?_, ?_, fun o h => trace_of_not_registered engine h s batch⟩
  · intro o o' h h'
    rw [trace_of_registered engine h, trace_of_registered engine h']
  · intro o hash h
    refine ⟨_, rfl, ?_, trace_unfiltered engine h s batch, ?_, ?_⟩
    · have hselects (p : Evm.Transaction × Except TraceError TxTrace) :
          ({ o with txHash := some hash } : Options).selects p.1.hash =
            decide (p.1.hash = hash) := by
        simp only [Options.selects, eq_comm]
      rw [trace_unfiltered engine h, trace_of_registered engine
        (o := { o with txHash := some hash }) h, entries_of_filter]
      simp only [hselects]
    · rw [trace_unfiltered engine h, length_entries]
    · intro t trace hmem
      rw [trace_unfiltered engine h] at hmem
      exact hash_of_mem_entries engine hmem

private def nothing : Settlement := ⟨true, 0, [], [], none⟩

/-- An engine that counts a transaction and does nothing else. One without gas is rejected, and of
one with input an ending is reported that belongs to no action. -/
private def countingEngine : Engine := fun _ _ _ t =>
  if t.gasLimit = 0 then throw (.rejected t.hash .initCodeSize)
  else
    let counted : AccountChange :=
      { record := { Ledger.blank with nonce := 1 }, created := false, destroyed := false
        slots := ∅ }
    return {
      nonce := 0
      changes := [(t.sender, counted)]
      outcome := nothing
      events := if t.input = [] then [.settled nothing] else [.ended (.returned 0 [] none)] }

private def sent (hash : Word) (gasLimit : UInt64) (input : Bytes) : Evm.Transaction :=
  { hash, sender := 1, target := some 2, value := 0, input, gasLimit, gasPrice := 0 }

/-- Two transactions with one hash, of which the later cannot be traced, around a rejected one. -/
private def repeating : Batch where
  block := { number := 7 }
  transactions := [sent 1 100 [], sent 2 0 [], sent 1 100 [9]]

private def unused : Session :=
  start .prague { account _ := .ok none, code _ := .ok [], storage _ _ := .ok 0 }

theorem trace_of_repeated_hash :
    (unused.trace countingEngine { tracer := "callTracer", txHash := some 1 } repeating).1 =
        (unused.trace countingEngine { tracer := "4byteTracer" } repeating).1 ∧
      (∃ first second third,
        (unused.trace countingEngine { tracer := "callTracer" } repeating).2 =
            [first, second, third] ∧
          (unused.trace countingEngine { tracer := "callTracer", txHash := some 1 } repeating).2 =
            [first, third]) ∧
      unused.trace countingEngine { tracer := "jsTracer" } repeating =
        (unused, [.error (.unknownTracer "jsTracer")]) := by
  obtain ⟨hsession, hfilter, hunknown⟩ := trace_of_options countingEngine unused repeating
  refine ⟨hsession _ _ rfl rfl, ?_, hunknown _ (by decide : ¬(none : Option TracerName).isSome)⟩
  obtain ⟨all, hall, hselected, _, hlength, _⟩ := hfilter { tracer := "callTracer" } 1 rfl
  match all, hlength with
  | [first, second, third], _ => exact ⟨first, second, third, hall, hselected⟩

end Session
end ExecutionTrace
