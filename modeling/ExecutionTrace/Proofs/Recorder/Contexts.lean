import ExecutionTrace.Proofs.Prestate.Touched
import ExecutionTrace.Proofs.Recorder.Actions

/-! On whose storage the steps of a machine run, and what a prestate knows of it. The hooks that
open an action tell the account, except for a creation whose address no salt fixes. -/
namespace ExecutionTrace

namespace Opening

/-- The opened action may run on the storage of `account`. A call runs on that of its target, which
is the caller where the code is foreign; a salt fixes the account of a creation. -/
def RunsOn (account : Address) : Opening → Prop
  | call scheme caller target _ _ _ _ => account = target ∧ (scheme = .callCode → caller = target)
  | create caller salt _ _ input => ∀ s, salt = some s → account = caller.createdFrom s input

/-- The account as the hook tells it. Of a top creation it may be known beforehand. -/
def context (f : TxFacts) (isTop : Bool) : Opening → Option Address
  | call scheme caller target _ _ _ _ => if scheme = .callCode then some caller else some target
  | create caller (some salt) _ _ input => some (caller.createdFrom salt input)
  | create _ none _ _ _ => if isTop then f.created else none

end Opening

def follow (opened : List Opening) : Hook → List Opening
  | .callStart scheme caller target codeAddress value gas input =>
    .call scheme caller target codeAddress value gas input :: opened
  | .createStart caller salt value gas input => .create caller salt value gas input :: opened
  | .finish _ _ _ _ => opened.tail
  | _ => opened

def openActions (hooks : List Hook) : List Opening := hooks.foldl follow []

/-- The innermost open action is a creation without a known address: it has no salt, and if it is
the top action its address is not known beforehand. -/
def Unaddressed (f : TxFacts) : List Opening → Prop
  | .create _ none _ _ _ :: outer => outer = [] → f.created = none
  | _ => False

/-- The steps of a body show `account`, and those of the actions inside show an account that these
may run on. -/
def HookBody.ShowsAccount (account : Address) : HookBody → Prop
  | done => True
  | step _ _ _ _ target rest => target = account ∧ rest.ShowsAccount account
  | log _ rest => rest.ShowsAccount account
  | selfDestruct _ _ _ rest => rest.ShowsAccount account
  | action opening inside _ rest =>
    (∃ inner, opening.RunsOn inner ∧ inside.ShowsAccount inner) ∧ rest.ShowsAccount account

/-- Every step shows the account on whose storage its action runs. That of a top creation is the one
known beforehand, if any is. -/
def HookAction.ShowsAccounts (f : TxFacts) (x : HookAction) : Prop :=
  ∃ account, x.opening.RunsOn account ∧
    (x.opening.kind.isCreate = true → ∀ created, f.created = some created → account = created) ∧
    x.body.ShowsAccount account

/-- The salt and the initialisation code that the operands of a salted creation tell. -/
structure SaltedOperands (memory : Bytes) (stack : List Word) (salt : Word) (code : Bytes) :
    Prop where
  salt : stack[3]? = some salt
  code : ∃ offset length, stack[1]? = some offset ∧ stack[2]? = some length ∧
    Operand.slice memory offset length = .ok code

/-! ### The contexts of open actions -/

def contexts (f : TxFacts) : List Opening → List (Option Address)
  | [] => []
  | opening :: outer => opening.context f outer.isEmpty :: contexts f outer

private theorem contexts_tail (f : TxFacts) (opened : List Opening) :
    contexts f opened.tail = (contexts f opened).tail := by
  cases opened <;> rfl

private theorem Opening.contextOf_entry (f : TxFacts) (opening : Opening) (outer : List Opening) :
    f.contextOf (opening.entry outer.length) = opening.context f outer.isEmpty := by
  rcases opening with ⟨scheme, _⟩ | ⟨_, _ | salt, _⟩
  · cases scheme <;> rfl
  · cases outer <;> rfl
  · rfl

namespace Recorder

variable (slot : Address → Word → Except DbFault Word)

private theorem isDetail_of_step {r : Recorder} {opcode : UInt8} {pc : Nat} {stack : List Word}
    {memory : ByteArray} {target : Address} {e : Event}
    (h : e ∈ (r.observe slot (.step opcode pc stack memory target)).1) : e.isDetail = true := by
  unfold observe at h
  dsimp only at h
  split at h
  · rw [List.mem_singleton.mp h]
    rfl
  · rcases List.mem_cons.mp h with rfl | h
    · rfl
    · rcases List.mem_append.mp h with h | h
      · split at h
        · rw [List.mem_singleton.mp h]
          rfl
        · cases h
      · rcases List.mem_cons.mp h with rfl | h
        · rfl
        · obtain ⟨key, value, rfl⟩ := exists_of_mem_storageEvents slot h
          rfl

end Recorder

/-- Operations open and close nothing. -/
private theorem TxFacts.foldl_moveContexts_of_details (f : TxFacts) {details : List Event}
    (h : ∀ e ∈ details, e.isDetail = true) (contexts : List (Option Address)) :
    details.foldl f.moveContexts contexts = contexts := by
  induction details with
  | nil => rfl
  | cons e rest ih =>
    have hfirst : f.moveContexts contexts e = contexts := by
      have he := h e List.mem_cons_self
      cases e <;> first | rfl | cases he
    rw [List.foldl_cons, hfirst]
    exact ih fun e he => h e (List.mem_cons_of_mem _ he)

namespace Recorder

variable (slot : Address → Word → Except DbFault Word)

private theorem contexts_observe (f : TxFacts) {r : Recorder} {opened : List Opening}
    (h : r.depth = opened.length) (hook : Hook) :
    (r.observe slot hook).1.foldl f.moveContexts (contexts f opened) =
        contexts f (follow opened hook) ∧
      (r.observe slot hook).2.depth = (follow opened hook).length := by
  cases hook with
  | callStart scheme caller target codeAddress value gas input =>
    have hcontext := Opening.contextOf_entry f
      (.call scheme caller target codeAddress value gas input) opened
    rw [← h] at hcontext
    exact ⟨congrArg (· :: contexts f opened) hcontext, congrArg (· + 1) h⟩
  | createStart caller salt value gas input =>
    have hcontext := Opening.contextOf_entry f (.create caller salt value gas input) opened
    rw [← h] at hcontext
    exact ⟨congrArg (· :: contexts f opened) hcontext, congrArg (· + 1) h⟩
  | finish exit gasLeft output created =>
    refine ⟨(contexts_tail f opened).symm, ?_⟩
    rw [follow, List.length_tail, ← h]
    rfl
  | selfDestruct contract beneficiary value => exact ⟨rfl, h⟩
  | log entry => exact ⟨rfl, h⟩
  | step opcode pc stack memory target =>
    refine ⟨f.foldl_moveContexts_of_details (fun e he => isDetail_of_step slot he) _, ?_⟩
    rw [depth_observe_step]
    exact h

/-- The contexts that the events of hooks tell are those of the open actions. -/
private theorem contexts_emitted (f : TxFacts) {r : Recorder} {opened : List Opening}
    (h : r.depth = opened.length) (hooks : List Hook) :
    (r.emitted slot hooks).foldl f.moveContexts (contexts f opened) =
      contexts f (hooks.foldl follow opened) := by
  induction hooks generalizing r opened with
  | nil => rfl
  | cons hook rest ih =>
    obtain ⟨hcontexts, hdepth⟩ := contexts_observe slot f h hook
    rw [emitted, List.foldl_append, hcontexts, List.foldl_cons]
    exact ih hdepth

end Recorder

/-! ### The innermost open action of a step -/

private theorem follow_opening (opened : List Opening) (opening : Opening) :
    follow opened opening.hook = opening :: opened := by
  cases opening <;> rfl

private theorem foldl_follow_body (body : HookBody) (opened : List Opening) :
    body.hooks.foldl follow opened = opened := by
  induction body generalizing opened with
  | done => rfl
  | step _ _ _ _ _ rest ih => exact ih opened
  | log _ rest ih => exact ih opened
  | selfDestruct _ _ _ rest ih => exact ih opened
  | action opening inside closing rest ihInside ihRest =>
    rw [HookBody.hooks, List.foldl_cons, follow_opening, List.foldl_append, ihInside]
    exact ihRest opened

/-- Where an element of a list stands that has another one in its middle. -/
private theorem split_cases {α : Type} {xs ys before after : List α} {y z : α} (hne : z ≠ y)
    (h : xs ++ y :: ys = before ++ z :: after) :
    (∃ rest, xs = before ++ z :: rest) ∨
      ∃ rest, before = xs ++ y :: rest ∧ ys = rest ++ z :: after := by
  rcases List.append_eq_append_iff.mp h with ⟨rest, hbefore, hys⟩ | ⟨rest, hxs, hz⟩
  · cases rest with
    | nil => exact absurd (List.cons.inj hys).1.symm hne
    | cons y' rest =>
      obtain ⟨rfl, hrest⟩ := List.cons.inj hys
      exact .inr ⟨rest, hbefore, hrest⟩
  · cases rest with
    | nil => exact absurd (List.cons.inj hz).1 hne
    | cons z' rest =>
      obtain ⟨rfl, _⟩ := List.cons.inj hz
      exact .inl ⟨rest, hxs⟩

section Steps

variable {opcode : UInt8} {pc : Nat} {stack : List Word} {memory : ByteArray} {target : Address}

private theorem Opening.step_ne_hook (opening : Opening) :
    Hook.step opcode pc stack memory target ≠ opening.hook := by
  cases opening <;> exact Hook.noConfusion

private theorem Closing.step_ne_hook (closing : Closing) :
    Hook.step opcode pc stack memory target ≠ closing.hook := Hook.noConfusion

/-- A step belongs to the action around the body, or to one inside that may run on the account that
the step shows. -/
private theorem HookBody.opened_at_step {body : HookBody} {account : Address}
    (hbody : body.ShowsAccount account) (opening : Opening) (outer : List Opening)
    {before after : List Hook}
    (hsplit : body.hooks = before ++ .step opcode pc stack memory target :: after) :
    ∃ inner rest, before.foldl follow (opening :: outer) = inner :: rest ∧
      ((inner = opening ∧ rest = outer ∧ target = account) ∨
        (inner.RunsOn target ∧ rest ≠ [])) := by
  induction body generalizing account opening outer before after with
  | done => cases before <;> cases hsplit
  | step opcode' pc' stack' memory' target' tail ih =>
    cases before with
    | nil =>
      cases hsplit
      exact ⟨opening, outer, rfl, .inl ⟨rfl, rfl, hbody.1⟩⟩
    | cons hook before =>
      obtain ⟨rfl, htail⟩ := List.cons.inj hsplit
      obtain ⟨inner, rest, hopened, hstep⟩ := ih hbody.2 opening outer htail
      exact ⟨inner, rest, hopened, hstep⟩
  | log entry tail ih =>
    cases before with
    | nil => cases hsplit
    | cons hook before =>
      obtain ⟨rfl, htail⟩ := List.cons.inj hsplit
      obtain ⟨inner, rest, hopened, hstep⟩ := ih hbody opening outer htail
      exact ⟨inner, rest, hopened, hstep⟩
  | selfDestruct contract beneficiary value tail ih =>
    cases before with
    | nil => cases hsplit
    | cons hook before =>
      obtain ⟨rfl, htail⟩ := List.cons.inj hsplit
      obtain ⟨inner, rest, hopened, hstep⟩ := ih hbody opening outer htail
      exact ⟨inner, rest, hopened, hstep⟩
  | action inner inside closing tail ihInside ihTail =>
    obtain ⟨⟨innerAccount, hruns, hinside⟩, htail⟩ := hbody
    cases before with
    | nil => exact absurd (List.cons.inj hsplit).1.symm inner.step_ne_hook
    | cons hook before =>
      obtain ⟨rfl, hrest⟩ := List.cons.inj hsplit
      rw [List.foldl_cons, follow_opening]
      rcases split_cases closing.step_ne_hook hrest with ⟨later, hstep⟩ | ⟨later, rfl, hstep⟩
      · -- The step is inside, so that the action around the body is not the innermost one.
        obtain ⟨innermost, around, hopened, ⟨rfl, rfl, rfl⟩ | hdeep⟩ :=
          ihInside hinside inner (opening :: outer) hstep
        · exact ⟨_, _, hopened, .inr ⟨hruns, List.cons_ne_nil _ _⟩⟩
        · exact ⟨_, _, hopened, .inr hdeep⟩
      · -- The step comes later, when the inner action has closed again.
        rw [List.foldl_append, foldl_follow_body, List.foldl_cons]
        exact ihTail htail opening outer hstep

/-- An action that may run on an account tells it, or has no known address. -/
private theorem Opening.context_of_runsOn {f : TxFacts} {opening : Opening} {outer : List Opening}
    (h : opening.RunsOn target)
    (htop : outer = [] → opening.kind.isCreate = true →
      ∀ created, f.created = some created → target = created) :
    opening.context f outer.isEmpty = some target ∨
      opening.context f outer.isEmpty = none ∧ Unaddressed f (opening :: outer) := by
  rcases opening with ⟨scheme, caller, callee, _⟩ | ⟨caller, _ | salt, value, gas, input⟩
  · obtain ⟨rfl, hcaller⟩ := h
    by_cases hforeign : scheme = .callCode
    · exact .inl (by rw [context, if_pos hforeign, hcaller hforeign])
    · exact .inl (if_neg hforeign)
  · cases outer with
    | nil =>
      cases hcreated : f.created with
      | none => exact .inr ⟨hcreated, fun _ => hcreated⟩
      | some created =>
        obtain rfl := htop rfl rfl created hcreated
        exact .inl hcreated
    | cons opening outer => exact .inr ⟨rfl, fun h => (nomatch h)⟩
  · exact .inl (congrArg some (h salt rfl).symm)

/-- At a step, the hooks before it tell the account that the step shows, or the innermost open
action has no known address. -/
theorem HookAction.context_at_step {f : TxFacts} {x : HookAction} (hx : x.ShowsAccounts f)
    {before after : List Hook}
    (hsplit : x.hooks = before ++ .step opcode pc stack memory target :: after) :
    (contexts f (openActions before)).head?.join = some target ∨
      (contexts f (openActions before)).head?.join = none ∧
        Unaddressed f (openActions before) := by
  obtain ⟨account, hruns, hcreated, hbody⟩ := hx
  cases before with
  | nil => exact absurd (List.cons.inj hsplit).1.symm x.opening.step_ne_hook
  | cons hook before =>
    obtain ⟨rfl, hrest⟩ := List.cons.inj hsplit
    rcases split_cases x.closing.step_ne_hook hrest with ⟨later, hstep⟩ | ⟨later, _, hend⟩
    · obtain ⟨inner, outer, hopened, hinner⟩ := HookBody.opened_at_step hbody x.opening [] hstep
      rw [openActions, List.foldl_cons, follow_opening, hopened]
      refine Opening.context_of_runsOn ?_ ?_
      · obtain ⟨rfl, _, rfl⟩ | ⟨hinner, _⟩ := hinner
        · exact hruns
        · exact hinner
      · intro houter
        obtain ⟨rfl, _, rfl⟩ | ⟨_, hdeep⟩ := hinner
        · exact hcreated
        · exact absurd houter hdeep
    · cases later <;> cases hend

end Steps

/-! ### What a prestate knows -/

namespace Recorder

variable (slot : Address → Word → Except DbFault Word)

/-- A prestate accepts the events of an action up to any point. -/
private theorem exists_run_of_prefix {r : Recorder} (h : r.depth = 0) {x : HookAction} {w : World}
    (hw : w.Readable) (f : TxFacts) {first second : List Event}
    (hevents : r.emitted slot x.hooks = first ++ second) :
    ∃ p, (Tracer.prestate (.start f)).run w first = .ok (.prestate p) := by
  obtain ⟨a, ha, _⟩ := exists_action_told slot h x
  obtain ⟨q, hrun⟩ := Prestate.exists_run_of_protocol hw f (Protocol.run_action a)
  rw [← ha, hevents] at hrun
  obtain ⟨p, hp, _⟩ := Prestate.exists_of_run_append hrun
  exact ⟨p, hp⟩

/-- In the middle of a step, a prestate knows what the hooks before it tell. -/
private theorem context_of_run {r : Recorder} (h : r.depth = 0) {w : World} {f : TxFacts}
    {before : List Hook} {told : List Event} (htold : ∀ e ∈ told, e.isDetail = true)
    {p : Prestate} (hrun : (Tracer.prestate (.start f)).run w (r.emitted slot before ++ told) =
      .ok (.prestate p)) :
    p.context = (contexts f (openActions before)).head?.join := by
  have hcontexts : (r.emitted slot before).foldl f.moveContexts [] =
      contexts f (openActions before) :=
    contexts_emitted slot f (show r.depth = [].length from h) before
  rw [Prestate.context_of_run hrun, TxFacts.contextAfter, List.foldl_append, hcontexts,
    f.foldl_moveContexts_of_details htold]

private theorem exists_entered_of_mem {r : Recorder} {hooks : List Hook} {caller : Address}
    {salt : Option Word} {value : Word} {gas : UInt64} {input : Bytes}
    (h : .createStart caller salt value gas input ∈ hooks) :
    ∃ depth, .entered (createEntry depth caller salt value gas input) ∈ r.emitted slot hooks := by
  induction hooks generalizing r with
  | nil => cases h
  | cons hook rest ih =>
    rcases List.mem_cons.mp h with rfl | hrest
    · exact ⟨r.depth, List.mem_append_left _ List.mem_cons_self⟩
    · obtain ⟨depth, hdepth⟩ := ih (r := (r.observe slot hook).2) hrest
      exact ⟨depth, List.mem_append_right _ hdepth⟩

end Recorder

/-- A salted creation names the address that follows from the storage context, if that is known. -/
private theorem names_iff_of_saltedOperands {precompiled : Address → Bool}
    {context : Option Address} {memory : Bytes} {stack : List Word} {salt : Word} {code : Bytes}
    (h : SaltedOperands memory stack salt code) (a : Address) :
    Names precompiled context memory stack 0xf5 a ↔
      ∃ creator, context = some creator ∧ a = creator.createdFrom salt code := by
  obtain ⟨hsalt, offset, length, hoffset, hlength, hcode⟩ := h
  constructor
  · intro ha
    cases ha with
    | account hop _ => exact absurd hop (by decide)
    | callee hop _ _ => exact absurd hop (by decide)
    | creation hcreator hoffset' hlength' hsalt' hcode' =>
      obtain rfl := Option.some.inj (hsalt.symm.trans hsalt')
      obtain rfl := Option.some.inj (hoffset.symm.trans hoffset')
      obtain rfl := Option.some.inj (hlength.symm.trans hlength')
      obtain rfl := Except.ok.inj (hcode.symm.trans hcode')
      exact ⟨_, hcreator, rfl⟩
  · rintro ⟨creator, hcreator, rfl⟩
    exact .creation hcreator hoffset hlength hsalt hcode

section AtStep

variable {slot : Address → Word → Except DbFault Word} {r : Recorder} {w : World} {f : TxFacts}
  {x : HookAction} {before after : List Hook} {opcode : UInt8} {pc : Nat} {stack : List Word}
  {memory : ByteArray} {target : Address}

/-- After any part of a step, a prestate knows the account that the step shows, or the innermost
open action has no known address. -/
private theorem Recorder.context_of_step (h : r.depth = 0) (hw : w.Readable)
    (hx : x.ShowsAccounts f)
    (hsplit : x.hooks = before ++ .step opcode pc stack memory target :: after)
    {told later : List Event}
    (htold : ((r.after slot before).observe slot (.step opcode pc stack memory target)).1 =
      told ++ later) :
    ∃ p, (Tracer.prestate (.start f)).run w (r.emitted slot before ++ told) = .ok (.prestate p) ∧
      (p.context = some target ∨ p.context = none ∧ Unaddressed f (openActions before)) := by
  have hevents : r.emitted slot x.hooks = (r.emitted slot before ++ told) ++
      (later ++ ((r.after slot before).observe slot
        (.step opcode pc stack memory target)).2.emitted slot after) := by
    rw [hsplit, emitted_append, emitted, htold]
    simp only [List.append_assoc]
  obtain ⟨p, hrun⟩ := exists_run_of_prefix slot h hw f hevents
  have hdetails : ∀ e ∈ told, e.isDetail = true := fun e he =>
    isDetail_of_step slot (htold ▸ List.mem_append_left _ he)
  refine ⟨p, hrun, ?_⟩
  rw [context_of_run slot h hdetails hrun]
  exact HookAction.context_at_step hx hsplit

/-- The operands of a salted creation, shown at the end of its step, name one account at most. -/
private theorem Recorder.touches_of_step (h : r.depth = 0) (hw : w.Readable)
    (hx : x.ShowsAccounts f)
    (hsplit : x.hooks = before ++ .step 0xf5 pc stack memory target :: after) {salt : Word}
    {code : Bytes} (hoperands : SaltedOperands memory.data.toList stack salt code) :
    ∃ told p, ((r.after slot before).observe slot (.step 0xf5 pc stack memory target)).1 =
        told ++ [.stack stack] ∧
      (Tracer.prestate (.start f)).run w (r.emitted slot before ++ told) = .ok (.prestate p) ∧
      ∀ a, a ∈ p.touches (.stack stack) ↔
        p.context = some target ∧ a = target.createdFrom salt code := by
  have htold : ((r.after slot before).observe slot (.step 0xf5 pc stack memory target)).1 =
      [.opStarted { pc, opcode := 0xf5, gas := 0, depth := (r.after slot before).depth - 1 },
        .memory memory.data.toList] ++ [.stack stack] := rfl
  obtain ⟨p, hrun, hcontext⟩ := context_of_step h hw hx hsplit htold
  have hop : p.op.opcode = some 0xf5 ∧ p.op.memory = memory.data.toList := by
    obtain ⟨_, _, hop, _⟩ := Prestate.known_of_run (Prestate.from_start f) hrun
    rw [hop, List.foldl_append]
    exact ⟨rfl, rfl⟩
  refine ⟨_, p, htold, hrun, fun a => ?_⟩
  rw [Prestate.mem_touches_stack]
  constructor
  · rintro ⟨opcode, hopcode, ha⟩
    obtain rfl : opcode = 0xf5 := Option.some.inj (hopcode.symm.trans hop.1)
    obtain ⟨creator, hcreator, rfl⟩ :=
      (names_iff_of_saltedOperands (hop.2 ▸ hoperands) a).mp ha
    obtain hknown | ⟨hnone, _⟩ := hcontext
    · obtain rfl := Option.some.inj (hcreator.symm.trans hknown)
      exact ⟨hknown, rfl⟩
    · rw [hnone] at hcreator
      cases hcreator
  · rintro ⟨hknown, ha⟩
    exact ⟨0xf5, hop.1, (names_iff_of_saltedOperands (hop.2 ▸ hoperands) a).mpr
      ⟨target, hknown, ha⟩⟩

end AtStep

namespace Recording

variable (slot : Address → Word → Except DbFault Word)

/-- At every event of a step, a prestate knows the account on whose storage the step runs, or the
innermost open action is a creation without a known address. So the operands of a salted creation
add to the captured accounts the one that the entry of the creation adds, unless it is precompiled,
and that the call tree names. -/
theorem contexts_of_hooks {r : Recording} (hdepth : r.recorder.depth = 0)
    (hnew : r.latestFirst = []) {w : World} (hw : w.Readable) {f : TxFacts} {x : HookAction}
    (hx : x.ShowsAccounts f) {before after : List Hook} {opcode : UInt8} {pc : Nat}
    {stack : List Word} {memory : ByteArray} {target : Address}
    (hsplit : x.hooks = before ++ .step opcode pc stack memory target :: after) :
    (∀ told later, (r.observeAll slot (before ++ [.step opcode pc stack memory target])).events =
        (r.observeAll slot before).events ++ (told ++ later) →
      ∃ p, (Tracer.prestate (.start f)).run w ((r.observeAll slot before).events ++ told) =
          .ok (.prestate p) ∧
        (p.context = some target ∨ p.context = none ∧ Unaddressed f (openActions before))) ∧
    ∀ salt value gas code, opcode = 0xf5 → SaltedOperands memory.data.toList stack salt code →
      .createStart target (some salt) value gas code ∈ after →
      ∃ told p entry created,
        (∃ depth, entry = Recorder.createEntry depth target (some salt) value gas code) ∧
          (r.observeAll slot (before ++ [.step opcode pc stack memory target])).events =
            (r.observeAll slot before).events ++ (told ++ [.stack stack]) ∧
          (Tracer.prestate (.start f)).run w ((r.observeAll slot before).events ++ told) =
            .ok (.prestate p) ∧
          .entered entry ∈ (r.observeAll slot x.hooks).events ∧
          (∀ a, a ∈ p.touches (.stack stack) ↔ p.context = some target ∧ a = created) ∧
          (∀ a, (p.step w (.stack stack)).1.captured.contains a = true ↔
            p.captured.contains a = true ∨ p.context = some target ∧ a = created) ∧
          (∀ g, Prestate.targetOf g entry = some created) ∧
          (∀ (q : Prestate) (a : Address),
            (q.step w (.entered entry)).1.captured.contains a = true ↔
              q.captured.contains a = true ∨
                (entry.depth = 0 ∧ a ∈ (q.facts.withTopEntry entry).parties) ∨
                (a = created ∧ q.facts.precompiled a = false)) ∧
          (Frame.ofEntry entry).target = some created := by
  have hstep : (r.observeAll slot (before ++ [.step opcode pc stack memory target])).events =
      r.recorder.emitted slot before ++
        ((r.recorder.after slot before).observe slot
          (.step opcode pc stack memory target)).1 := by
    rw [events_observeAll_of_nil slot hnew, Recorder.emitted_append]
    simp only [Recorder.emitted, List.append_nil]
  rw [events_observeAll_of_nil slot hnew before, events_observeAll_of_nil slot hnew x.hooks, hstep]
  refine ⟨fun told later htold => ?_, ?_⟩
  · exact Recorder.context_of_step hdepth hw hx hsplit (List.append_cancel_left htold)
  · rintro salt value gas code rfl hoperands hcreation
    obtain ⟨told, p, htold, hrun, htouches⟩ :=
      Recorder.touches_of_step hdepth hw hx hsplit hoperands
    have hmem : .createStart target (some salt) value gas code ∈ x.hooks := by
      rw [hsplit]
      exact List.mem_append_right _ (List.mem_cons_of_mem _ hcreation)
    obtain ⟨depth, hentered⟩ := Recorder.exists_entered_of_mem slot hmem
    refine ⟨told, p, _, target.createdFrom salt code, ⟨depth, rfl⟩, congrArg _ htold, hrun,
      hentered, htouches, fun a => ?_, fun _ => rfl, fun q a => ?_, rfl⟩
    · rw [Prestate.contains_step hw, htouches]
    · exact Prestate.contains_step_entered hw q (fun _ => rfl) a

private def delegating : List Hook :=
  [.callStart .call 1 2 2 0 50000 [], .callStart .delegateCall 1 2 3 0 800 []]

private def creatingHooks : HookAction where
  opening := .call .call 1 2 2 0 50000 []
  body :=
    .action (.call .delegateCall 1 2 3 0 800 [])
      (.step 0xf5 0 [0, 0, 0, 7] ByteArray.empty 2 <|
        .action (.create 2 (some 7) 0 500 []) .done ⟨.returned, 100, [], none⟩ .done)
      ⟨.stop, 0, [], none⟩ .done
  closing := ⟨.stop, 20000, [], none⟩

theorem contexts_of_delegated_creation :
    ∃ told p entry,
      (Tracer.prestate (.start {})).run .blank
          ((observeAll (fun _ _ => .ok 0) {} delegating).events ++ told) = .ok (.prestate p) ∧
        p.context = some 2 ∧
        (p.step .blank (.stack [0, 0, 0, 7])).1.captured.contains (Address.createdFrom 2 7 []) ∧
        .entered entry ∈ (observeAll (fun _ _ => .ok 0) {} creatingHooks.hooks).events ∧
        (Frame.ofEntry entry).target = some (Address.createdFrom 2 7 []) := by
  have hshows : creatingHooks.ShowsAccounts {} :=
    ⟨2, ⟨rfl, fun h => (nomatch h)⟩, fun _ _ h => (nomatch h),
      ⟨2, ⟨rfl, fun h => (nomatch h)⟩, rfl,
        ⟨Address.createdFrom 2 7 [], fun _ h => by cases h; rfl, trivial⟩, trivial⟩, trivial⟩
  have hsplit : creatingHooks.hooks = delegating ++
      .step 0xf5 0 [0, 0, 0, 7] ByteArray.empty 2 :: creatingHooks.hooks.drop 3 := rfl
  obtain ⟨hknown, hcreation⟩ := contexts_of_hooks (fun _ _ => .ok 0) (r := {}) rfl rfl
    World.readable_blank hshows hsplit
  obtain ⟨told, p, entry, created, ⟨depth, rfl⟩, htold, hrun, hentered, _, hcaptured, _, _,
    hframe⟩ := hcreation 7 0 500 [] rfl ⟨rfl, 0, 0, rfl, rfl, rfl⟩ List.mem_cons_self
  obtain ⟨p', hrun', hcontext⟩ := hknown told _ htold
  obtain rfl : p' = p := by
    rw [hrun] at hrun'
    cases hrun'
    rfl
  have hcontext : p'.context = some 2 := hcontext.resolve_right fun h => h.2
  have hcreated : some (Address.createdFrom 2 7 []) = some created := hframe
  refine ⟨told, p', _, hrun, hcontext, (hcaptured _).mpr (.inr ⟨hcontext, ?_⟩), hentered, rfl⟩
  exact Option.some.inj hcreated

end Recording

end ExecutionTrace
