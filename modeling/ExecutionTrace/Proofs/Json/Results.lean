import ExecutionTrace.Prestate.Json
import ExecutionTrace.Proofs.CallTree.Pruning
import ExecutionTrace.Proofs.Hex
import ExecutionTrace.Proofs.Json.RoundTrip
import Mathlib.Data.List.Basic

/-!
Results as texts. A field that is left out is told apart from every value the field can have, so the
text of a call tree or of a prestate determines it.
-/
namespace ExecutionTrace

/-! ### Fields -/

namespace Json

def field? (j : Json) (key : String) : Option Json :=
  match j with
  | .obj fields => fields.lookup key
  | _ => none

section Fields

variable {α : Type} (key other : String)

private theorem lookup_cons_eq (j : Json) (fields : List (String × Json)) :
    ((key, j) :: fields).lookup other = if other = key then some j else fields.lookup other := by
  by_cases h : other = key
  · rw [List.lookup_cons, beq_iff_eq.mpr h, if_pos h]
  · rw [List.lookup_cons, beq_eq_false_iff_ne.mpr h, if_neg h]

private theorem lookup_optional (write : α → Json) (value : Option α) :
    (optional key write value).lookup other = if other = key then value.map write else none := by
  cases value with
  | none => exact (ite_self none).symm
  | some value => exact lookup_cons_eq key other (write value) []

private theorem lookup_nonempty (write : List α → Json) (items : List α) :
    (nonempty key write items).lookup other =
      if other = key ∧ items ≠ [] then some (write items) else none := by
  cases items with
  | nil => simp [nonempty]
  | cons item items => simp [nonempty, lookup_cons_eq]

/-- Leaving out one value tells it apart from the others. -/
private theorem eq_of_left_out {x y default : α} [Decidable (x ≠ default)] [Decidable (y ≠ default)]
    (write : α → Json) (hwrite : write x = write y → x = y)
    (h : (if x ≠ default then some (write x) else none) =
      if y ≠ default then some (write y) else none) : x = y := by
  by_cases hx : x = default
  · by_cases hy : y = default
    · rw [hx, hy]
    · simp [hx, hy] at h
  · by_cases hy : y = default
    · simp [hx, hy] at h
    · rw [if_pos hx, if_pos hy] at h
      exact hwrite (Option.some.inj h)

end Fields

private theorem bytes_injective : Function.Injective Json.bytes := fun _ _ h =>
  Hex.ofBytes_injective (Json.str.inj h)

private theorem quantity_injective : Function.Injective Json.quantity := fun _ _ h =>
  Hex.quantity_injective (Json.str.inj h)

private theorem address_injective : Function.Injective Json.address := fun _ _ h =>
  Hex.address_injective (Json.str.inj h)

private theorem word_injective : Function.Injective Json.word := fun _ _ h =>
  Hex.word_injective (Json.str.inj h)

end Json

/-! ### Frames -/

private theorem ActionKind.name_injective : Function.Injective ActionKind.name := by
  intro a b
  cases a <;> cases b <;> decide

theorem FrameLog.toJson_injective : Function.Injective FrameLog.toJson := by
  rintro ⟨⟨address, topics, data⟩, position⟩ ⟨⟨address', topics', data'⟩, position'⟩ h
  simp only [FrameLog.toJson, Json.obj.injEq, List.cons.injEq, Prod.mk.injEq, Json.arr.injEq,
    true_and, and_true] at h
  obtain ⟨haddress, htopics, hdata, hposition⟩ := h
  rw [Json.address_injective haddress, List.map_injective_iff.mpr Json.word_injective htopics,
    Json.bytes_injective hdata, UInt64.toNat_inj.mp (Json.quantity_injective hposition)]

namespace Frame

private theorem toJsonAll_eq_map (calls : List Frame) : toJsonAll calls = calls.map toJson := by
  induction calls with
  | nil => rw [toJsonAll, List.map_nil]
  | cons call calls ih => rw [toJsonAll, ih, List.map_cons]

private theorem field?_toJson (f : Frame) :
    f.toJson.field? "type" = some (.str f.kind.name) ∧
    f.toJson.field? "from" = some (.address f.sender) ∧
    f.toJson.field? "gas" = some (.quantity f.gas.toNat) ∧
    f.toJson.field? "gasUsed" = some (.quantity f.gasUsed.toNat) ∧
    f.toJson.field? "to" = f.target.map .address ∧
    f.toJson.field? "input" = some (.bytes f.input) ∧
    f.toJson.field? "output" = (if f.output ≠ [] then some (.bytes f.output) else none) ∧
    f.toJson.field? "error" = f.error.map .str ∧
    f.toJson.field? "revertReason" = f.revertReason.map .str ∧
    f.toJson.field? "calls" =
      (if f.calls ≠ [] then some (.arr (f.calls.map toJson)) else none) ∧
    f.toJson.field? "logs" =
      (if f.logs ≠ [] then some (.arr (f.logs.map FrameLog.toJson)) else none) ∧
    f.toJson.field? "value" = f.value.map fun v => .quantity v.toNat := by
  cases f
  simp [toJson, toJsonAll_eq_map, Json.field?, Json.lookup_optional, Json.lookup_nonempty,
    List.lookup_append, List.lookup_cons]

private theorem eq_of_toJson_eq {f g : Frame} (h : f.toJson = g.toJson)
    (hcalls : f.calls.map toJson = g.calls.map toJson → f.calls = g.calls) : f = g := by
  obtain ⟨kind, sender, gas, gasUsed, target, input, output, error, reason, calls, logs, value⟩ :=
    field?_toJson f
  obtain ⟨kind', sender', gas', gasUsed', target', input', output', error', reason', calls', logs',
    value'⟩ := field?_toJson g
  rw [← h] at kind' sender' gas' gasUsed' target' input' output' error' reason' calls' logs' value'
  have hvalue : Function.Injective fun v : Word => Json.quantity v.toNat := fun _ _ h =>
    BitVec.eq_of_toNat_eq (Json.quantity_injective h)
  have hlogs : Function.Injective (List.map FrameLog.toJson) :=
    List.map_injective_iff.mpr FrameLog.toJson_injective
  have hstr : Function.Injective Json.str := fun _ _ => Json.str.inj
  -- a field that is there in both texts is compared by its value; one that is left out of both can
  -- only have been absent or empty
  have hkind := ActionKind.name_injective (Json.str.inj (Option.some.inj (kind.symm.trans kind')))
  have hsender := Json.address_injective (Option.some.inj (sender.symm.trans sender'))
  have hgas := UInt64.toNat_inj.mp (Json.quantity_injective (Option.some.inj (gas.symm.trans gas')))
  have hgasUsed := UInt64.toNat_inj.mp
    (Json.quantity_injective (Option.some.inj (gasUsed.symm.trans gasUsed')))
  have htarget := Option.map_injective Json.address_injective (target.symm.trans target')
  have hinput := Json.bytes_injective (Option.some.inj (input.symm.trans input'))
  have houtput := Json.eq_of_left_out _ (fun h => Json.bytes_injective h)
    (output.symm.trans output')
  have herror := Option.map_injective hstr (error.symm.trans error')
  have hreason := Option.map_injective hstr (reason.symm.trans reason')
  have hinner := Json.eq_of_left_out (fun calls => .arr (calls.map toJson))
    (fun h => hcalls (Json.arr.inj h)) (calls.symm.trans calls')
  have hlog := Json.eq_of_left_out (fun logs => .arr (logs.map FrameLog.toJson))
    (fun h => hlogs (Json.arr.inj h)) (logs.symm.trans logs')
  have hworth := Option.map_injective hvalue (value.symm.trans value')
  cases f
  cases g
  simp only [Frame.mk.injEq]
  exact ⟨hkind, hsender, hgas, hgasUsed, htarget, hinput, houtput, herror, hreason, hinner, hlog,
    hworth⟩

private theorem calls_eq_of_toJson_eq {calls calls' : List Frame}
    (hcalls : ∀ call ∈ calls, ∀ ⦃call' : Frame⦄, call.toJson = call'.toJson → call = call')
    (h : calls.map toJson = calls'.map toJson) : calls = calls' := by
  induction calls generalizing calls' with
  | nil => exact (List.map_eq_nil_iff.mp h.symm).symm
  | cons call calls ih =>
    obtain ⟨hcall, hcalls⟩ := List.forall_mem_cons.mp hcalls
    cases calls' with
    | nil => cases h
    | cons call' calls' =>
      obtain ⟨hfirst, hmore⟩ := List.cons.inj h
      rw [hcall hfirst, ih hcalls hmore]

theorem toJson_injective : Function.Injective toJson := by
  intro f
  induction f using inductOn with
  | frame f ih => exact fun g h => eq_of_toJson_eq h (calls_eq_of_toJson_eq ih)

end Frame

/-! ### Accounts -/

private theorem Account.storageToJson_injective : Function.Injective Account.storageToJson := by
  intro storage storage' h
  refine List.map_injective_iff.mpr ?_ (Json.obj.inj h)
  rintro ⟨key, value⟩ ⟨key', value'⟩ h
  obtain ⟨hkey, hvalue⟩ := Prod.mk.inj h
  rw [Hex.word_injective hkey, Json.word_injective hvalue]

private theorem Account.field?_toJson (a : Account) :
    a.toJson.field? "balance" = some (.quantity a.balance.toNat) ∧
    a.toJson.field? "nonce" = (if a.nonce ≠ 0 then some (.int a.nonce.toNat) else none) ∧
    a.toJson.field? "code" = (if a.code ≠ [] then some (.bytes a.code) else none) ∧
    a.toJson.field? "storage" = (if a.storage.toList ≠ [] then
      some (Account.storageToJson a.storage.toList) else none) := by
  by_cases hnonce : a.nonce = 0 <;>
    simp [toJson, hnonce, Json.field?, Json.lookup_nonempty, Json.lookup_cons_eq,
      List.lookup_append]

theorem Account.toJson_injective : Function.Injective Account.toJson := by
  intro a a' h
  obtain ⟨balance, nonce, code, storage⟩ := a.field?_toJson
  obtain ⟨balance', nonce', code', storage'⟩ := a'.field?_toJson
  rw [← h] at balance' nonce' code' storage'
  cases a
  cases a'
  congr
  · exact BitVec.eq_of_toNat_eq
      (Json.quantity_injective (Option.some.inj (balance.symm.trans balance')))
  · exact Json.eq_of_left_out (fun nonce : UInt64 => .int nonce.toNat)
      (fun h => UInt64.toNat_inj.mp (Int.ofNat.inj (Json.int.inj h)))
      (nonce.symm.trans nonce')
  · exact Json.eq_of_left_out _ (fun h => Json.bytes_injective h) (code.symm.trans code')
  · exact OrdMap.toList_injective
      (Json.eq_of_left_out _ (fun h => Account.storageToJson_injective h)
        (storage.symm.trans storage'))

theorem Accounts.toJson_injective : Function.Injective Accounts.toJson := by
  intro accounts accounts' h
  refine OrdMap.toList_injective (List.map_injective_iff.mpr ?_ (Json.obj.inj h))
  rintro ⟨a, account⟩ ⟨a', account'⟩ h
  obtain ⟨ha, haccount⟩ := Prod.mk.inj h
  rw [Hex.address_injective ha, Account.toJson_injective haccount]

/-! ### No doubles -/

namespace Json

private theorem doublesOfItems_eq_nil {items : List Json} (h : ∀ item ∈ items, item.doubles = []) :
    doublesOfItems items = [] := by
  induction items with
  | nil => rfl
  | cons item items ih =>
    obtain ⟨hitem, hitems⟩ := List.forall_mem_cons.mp h
    rw [doublesOfItems, hitem, ih hitems, List.append_nil]

private theorem doublesOfFields_eq_nil {fields : List (String × Json)}
    (h : ∀ field ∈ fields, field.2.doubles = []) : doublesOfFields fields = [] := by
  induction fields with
  | nil => rfl
  | cons field fields ih =>
    obtain ⟨key, value⟩ := field
    obtain ⟨hvalue, hfields⟩ := List.forall_mem_cons.mp h
    rw [doublesOfFields, hvalue, ih hfields, List.append_nil]

private theorem doubles_arr_map {α : Type} (write : α → Json) {l : List α}
    (h : ∀ a ∈ l, (write a).doubles = []) : (arr (l.map write)).doubles = [] :=
  doublesOfItems_eq_nil (List.forall_mem_map.mpr h)

private theorem doublesOfFields_append (first second : List (String × Json)) :
    doublesOfFields (first ++ second) = doublesOfFields first ++ doublesOfFields second := by
  induction first with
  | nil => rfl
  | cons field first ih =>
    obtain ⟨key, value⟩ := field
    rw [List.cons_append, doublesOfFields, doublesOfFields, ih, List.append_assoc]

private theorem doublesOfFields_optional {α : Type} {write : α → Json}
    (h : ∀ a, (write a).doubles = []) (key : String) (value : Option α) :
    doublesOfFields (optional key write value) = [] := by
  cases value with
  | none => rfl
  | some a => rw [optional, doublesOfFields, h, doublesOfFields, List.append_nil]

private theorem doublesOfFields_nonempty {α : Type} {write : List α → Json} {items : List α}
    (h : (write items).doubles = []) (key : String) :
    doublesOfFields (nonempty key write items) = [] := by
  cases items with
  | nil => rfl
  | cons a items =>
    have hfield : nonempty key write (a :: items) = [(key, write (a :: items))] := rfl
    rw [hfield, doublesOfFields, h, doublesOfFields, List.append_nil]

end Json

private theorem FrameLog.doubles_toJson (l : FrameLog) : l.toJson.doubles = [] := by
  have htopics := Json.doubles_arr_map Json.word fun topic (_ : topic ∈ l.entry.topics) => rfl
  refine Json.doublesOfFields_eq_nil ?_
  simp only [List.forall_mem_cons]
  exact ⟨rfl, htopics, rfl, rfl, List.forall_mem_nil _⟩

private theorem Frame.doubles_toJson (f : Frame) : f.toJson.doubles = [] := by
  induction f using inductOn with
  | frame f ih =>
    have hcalls := Json.doubles_arr_map Frame.toJson ih
    have hlogs := Json.doubles_arr_map FrameLog.toJson fun l (_ : l ∈ f.logs) => l.doubles_toJson
    cases f
    rw [Frame.toJson, toJsonAll_eq_map, Json.doubles]
    simp only [Json.doublesOfFields_append, Json.doublesOfFields_nonempty hcalls,
      Json.doublesOfFields_nonempty hlogs, List.append_nil]
    rw [Json.doublesOfFields_optional fun _ => rfl, Json.doublesOfFields_optional fun _ => rfl,
      Json.doublesOfFields_optional fun _ => rfl, Json.doublesOfFields_optional fun _ => rfl,
      Json.doublesOfFields_nonempty rfl]
    rfl

private theorem Account.doubles_toJson (a : Account) : a.toJson.doubles = [] := by
  have hstorage : (Account.storageToJson a.storage.toList).doubles = [] :=
    Json.doublesOfFields_eq_nil (List.forall_mem_map.mpr fun _ _ => rfl)
  rw [toJson, Json.doubles]
  simp only [Json.doublesOfFields_append, Json.doublesOfFields_nonempty hstorage, List.append_nil]
  rw [Json.doublesOfFields_nonempty rfl]
  split <;> rfl

private theorem Accounts.doubles_toJson (accounts : Accounts) :
    (Accounts.toJson accounts).doubles = [] := by
  refine Json.doublesOfFields_eq_nil (List.forall_mem_map.mpr ?_)
  exact fun entry _ => entry.2.doubles_toJson

/-! ### Texts -/

/-- Call trees with one text are equal, and so are prestates; of an account, a nonce of zero, empty
code and empty storage are left out and nothing else is. -/
theorem results_eq_of_text_eq :
    (Function.Injective fun top : Frame => top.toJson.render) ∧
    (Function.Injective fun accounts : Accounts => (Accounts.toJson accounts).render) ∧
    ∀ a : Account,
      a.toJson.field? "balance" ≠ none ∧
      (a.toJson.field? "nonce" = none ↔ a.nonce = 0) ∧
      (a.toJson.field? "code" = none ↔ a.code = []) ∧
      (a.toJson.field? "storage" = none ↔ a.storage = ∅) := by
  refine ⟨fun top top' h => Frame.toJson_injective
      (Json.eq_of_render_eq top.doubles_toJson top'.doubles_toJson h),
    fun accounts accounts' h => Accounts.toJson_injective
      (Json.eq_of_render_eq (Accounts.doubles_toJson _) (Accounts.doubles_toJson _) h),
    fun a => ?_⟩
  obtain ⟨balance, nonce, code, storage⟩ := a.field?_toJson
  have hstorage : a.storage = ∅ ↔ a.storage.toList = [] :=
    ⟨congrArg OrdMap.toList, fun h => OrdMap.toList_injective h⟩
  rw [balance, nonce, code, storage, hstorage]
  simp

end ExecutionTrace
