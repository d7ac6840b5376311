import ExecutionTrace.Proofs.Json.RoundTrip

/-!
Values that were read in earnest, and what is read, with as much room, from what they are written
as. It is the same value if each double inside it is read again from its own text, and no value
otherwise.
-/
namespace ExecutionTrace.Json

/-- Every double inside the value is read again, unchanged, from its own text. -/
def Lasting (j : Json) : Prop := ∀ x ∈ j.doubles, x.Lasting

instance (j : Json) : Decidable j.Lasting := inferInstanceAs (Decidable (∀ x ∈ _, _))

private theorem lasting_items {items : List Json} :
    (∀ x ∈ doublesOfItems items, x.Lasting) ↔ ∀ item ∈ items, item.Lasting := by
  induction items with
  | nil => simp [doublesOfItems]
  | cons item items ih =>
    rw [doublesOfItems, List.forall_mem_append, List.forall_mem_cons, ih]
    rfl

private theorem lasting_fields {fields : List (String × Json)} :
    (∀ x ∈ doublesOfFields fields, x.Lasting) ↔ ∀ field ∈ fields, field.2.Lasting := by
  induction fields with
  | nil => simp [doublesOfFields]
  | cons field fields ih =>
    obtain ⟨key, value⟩ := field
    rw [doublesOfFields, List.forall_mem_append, List.forall_mem_cons, ih]
    rfl

namespace Source

theorem number?_numeral (x : Double) :
    number? x.numeral = (Double.ofNumeral? x.numeral).map .real := by
  rw [number?, x.isWhole_numeral]
  rfl

/-- Whole numbers of 64 bits, with or without a sign, are held as they are. -/
theorem number?_ofInt {i : Int} (hlower : -9223372036854775808 ≤ i)
    (hupper : i < 18446744073709551616) : number? (.ofInt i) = some (.int i) := by
  have hsize : UInt64.size = 18446744073709551616 := rfl
  rw [number?, hsize]
  by_cases hneg : i < 0
  · rw [if_neg, if_pos]
    · simp only [Numeral.ofInt]
      congr
      omega
    · simp [Numeral.ofInt, Numeral.isWhole, hneg]
      omega
    · simp [Numeral.ofInt, hneg]
  · rw [if_pos]
    · simp only [Numeral.ofInt]
      congr
      omega
    · simp [Numeral.ofInt, Numeral.isWhole, hneg]
      omega

/-! ### From the text to the value and back -/

private theorem number?_ofJson {n : Numeral} {j : Json} (h : number? n = some j) (hlast : j.Lasting)
    (room : Nat) : toJson? room (ofJson j) = some j := by
  have hsize : UInt64.size = 18446744073709551616 := rfl
  rw [number?, hsize] at h
  split at h
  · next hwhole =>
    cases h
    simp only [Bool.and_eq_true, decide_eq_true_eq] at hwhole
    exact number?_ofInt (by omega) (by omega)
  · split at h
    · next hnegative =>
      cases h
      simp only [Bool.and_eq_true, decide_eq_true_eq] at hnegative
      exact number?_ofInt (by omega) (by omega)
    · obtain ⟨x, _, rfl⟩ := Option.map_eq_some_iff.mp h
      have hx : x.Lasting := hlast x (List.mem_singleton_self x)
      rw [ofJson, toJson?, number?_numeral, hx, Option.map_some]

private theorem fieldsToJson?_ofFields (room : Nat) {fields : List (String × Json)}
    (h : ∀ key j, (key, j) ∈ fields → toJson? room (ofJson j) = some j) :
    fieldsToJson? room (ofFields fields) = some fields := by
  induction fields with
  | nil => rw [ofFields, fieldsToJson?]
  | cons field fields ih =>
    obtain ⟨key, j⟩ := field
    have hj := h key j List.mem_cons_self
    have hfields := ih fun key j hj => h key j (List.mem_cons_of_mem _ hj)
    rw [ofFields, fieldsToJson?, hj, hfields]
    rfl

mutual

/-- A value that was read is read again from what its text writes, if the doubles inside are. -/
theorem toJson?_ofJson : ∀ (source : Source) {room : Nat} {j : Json},
    toJson? room source = some j → j.Lasting → toJson? room (ofJson j) = some j
  | .null, room, j, h, _ => by
    rw [toJson?] at h
    cases h
    rw [ofJson, toJson?]
  | .bool b, room, j, h, _ => by
    rw [toJson?] at h
    cases h
    rw [ofJson, toJson?]
  | .num n, room, j, h, hlast => by
    rw [toJson?] at h
    exact number?_ofJson h hlast room
  | .str s, room, j, h, _ => by
    rw [toJson?] at h
    obtain ⟨text, rfl, rfl⟩ := Option.map_eq_some_iff.mp h
    rw [ofJson, toJson?, Option.map_some]
  | .arr items, 0, j, h, _ => by
    rw [toJson?] at h
    cases h
  | .arr items, room + 1, j, h, hlast => by
    rw [toJson?] at h
    obtain ⟨values, hvalues, rfl⟩ := Option.map_eq_some_iff.mp h
    have hitems := itemsToJson?_ofItems items hvalues (lasting_items.mp hlast)
    rw [ofJson, toJson?, hitems, Option.map_some]
  | .obj fields, 0, j, h, _ => by
    rw [toJson?] at h
    cases h
  | .obj fields, room + 1, j, h, hlast => by
    rw [toJson?] at h
    obtain ⟨values, hvalues, rfl⟩ := Option.map_eq_some_iff.mp h
    have hkept := fieldsToJson?_ofFields room fun key j hj =>
      readable_of_fieldsToJson? fields hvalues key j (OrdMap.of_mem_toList_ofList hj)
        (lasting_fields.mp hlast (key, j) hj)
    rw [ofJson, toJson?, hkept, Option.map_some, OrdMap.ofList_toList]

private theorem itemsToJson?_ofItems : ∀ (items : List Source) {room : Nat} {values : List Json},
    itemsToJson? room items = some values → (∀ value ∈ values, value.Lasting) →
      itemsToJson? room (ofItems values) = some values
  | [], room, values, h, _ => by
    rw [itemsToJson?] at h
    cases h
    rw [ofItems, itemsToJson?]
  | item :: items, room, values, h, hlast => by
    rw [itemsToJson?] at h
    obtain ⟨value, hvalue, h⟩ := Option.bind_eq_some_iff.mp h
    obtain ⟨more, hmore, h⟩ := Option.bind_eq_some_iff.mp h
    cases h
    obtain ⟨hfirst, hothers⟩ := List.forall_mem_cons.mp hlast
    rw [ofItems, itemsToJson?, toJson?_ofJson item hvalue hfirst,
      itemsToJson?_ofItems items hmore hothers]
    rfl

private theorem readable_of_fieldsToJson? : ∀ (fields : List (Option String × Source)) {room : Nat}
    {values : List (String × Json)}, fieldsToJson? room fields = some values →
      ∀ key j, (key, j) ∈ values → j.Lasting → toJson? room (ofJson j) = some j
  | [], room, values, h, key, j, hj, _ => by
    rw [fieldsToJson?] at h
    cases h
    cases hj
  | (name, item) :: fields, room, values, h, key, j, hj, hlast => by
    rw [fieldsToJson?] at h
    obtain ⟨text, _, h⟩ := Option.bind_eq_some_iff.mp h
    obtain ⟨value, hvalue, h⟩ := Option.bind_eq_some_iff.mp h
    obtain ⟨more, hmore, h⟩ := Option.bind_eq_some_iff.mp h
    cases h
    obtain hfirst | hlater := List.mem_cons.mp hj
    · obtain ⟨rfl, rfl⟩ := Prod.mk.inj hfirst
      exact toJson?_ofJson item hvalue hlast
    · exact readable_of_fieldsToJson? fields hmore key j hlater hlast

end

/-! ### Values that come back unchanged -/

private theorem of_itemsToJson?_ofItems {room : Nat} {items : List Json}
    (h : itemsToJson? room (ofItems items) = some items) :
    ∀ item ∈ items, toJson? room (ofJson item) = some item := by
  induction items with
  | nil => exact List.forall_mem_nil _
  | cons item items ih =>
    rw [ofItems, itemsToJson?] at h
    obtain ⟨value, hvalue, h⟩ := Option.bind_eq_some_iff.mp h
    obtain ⟨more, hmore, h⟩ := Option.bind_eq_some_iff.mp h
    cases h
    exact List.forall_mem_cons.mpr ⟨hvalue, ih hmore⟩

private theorem exists_of_fieldsToJson? {room : Nat} {fields values : List (String × Json)}
    (h : fieldsToJson? room (ofFields fields) = some values) {key : String} {j : Json}
    (hj : (key, j) ∈ values) :
    ∃ before, (key, before) ∈ fields ∧ toJson? room (ofJson before) = some j := by
  induction fields generalizing values with
  | nil =>
    rw [ofFields, fieldsToJson?] at h
    cases h
    cases hj
  | cons field fields ih =>
    obtain ⟨name, value⟩ := field
    rw [ofFields, fieldsToJson?] at h
    rw [Option.bind_eq_bind, Option.bind_some] at h
    obtain ⟨again, hvalue, h⟩ := Option.bind_eq_some_iff.mp h
    obtain ⟨more, hmore, h⟩ := Option.bind_eq_some_iff.mp h
    cases h
    obtain hfirst | hlater := List.mem_cons.mp hj
    · obtain ⟨rfl, rfl⟩ := Prod.mk.inj hfirst
      exact ⟨value, List.mem_cons_self, hvalue⟩
    · obtain ⟨before, hbefore, hread⟩ := ih hmore hlater
      exact ⟨before, List.mem_cons_of_mem _ hbefore, hread⟩

/-- The fields of an object that comes back unchanged do so one by one, since no two of them have
one key. -/
private theorem of_fieldsToJson?_ofFields {room : Nat} {fields values : List (String × Json)}
    (h : fieldsToJson? room (ofFields fields) = some values)
    (hsame : (OrdMap.ofList values).toList = fields) :
    ∀ key j, (key, j) ∈ fields → toJson? room (ofJson j) = some j := by
  intro key j hj
  have hvalue : (key, j) ∈ values := OrdMap.of_mem_toList_ofList (hsame.symm ▸ hj)
  obtain ⟨before, hbefore, hread⟩ := exists_of_fieldsToJson? h hvalue
  rw [← hsame, OrdMap.mem_toList_iff] at hj hbefore
  obtain rfl := Option.some.inj (hbefore.symm.trans hj)
  exact hread

mutual

/-- A value that comes back unchanged has only doubles inside that do. -/
private theorem lasting_of_toJson?_ofJson : ∀ (j : Json) {room : Nat},
    toJson? room (ofJson j) = some j → j.Lasting
  | .null, _, _ => List.forall_mem_nil _
  | .bool _, _, _ => List.forall_mem_nil _
  | .int _, _, _ => List.forall_mem_nil _
  | .str _, _, _ => List.forall_mem_nil _
  | .real x, room, h => by
    rw [ofJson, toJson?, number?_numeral] at h
    obtain ⟨again, hagain, heq⟩ := Option.map_eq_some_iff.mp h
    cases heq
    exact List.forall_mem_singleton.mpr hagain
  | .arr items, 0, h => by
    rw [ofJson, toJson?] at h
    cases h
  | .arr items, room + 1, h => by
    rw [ofJson, toJson?] at h
    obtain ⟨values, hvalues, heq⟩ := Option.map_eq_some_iff.mp h
    cases heq
    exact lasting_items.mpr (lasting_of_items items (of_itemsToJson?_ofItems hvalues))
  | .obj fields, 0, h => by
    rw [ofJson, toJson?] at h
    cases h
  | .obj fields, room + 1, h => by
    rw [ofJson, toJson?] at h
    obtain ⟨values, hvalues, heq⟩ := Option.map_eq_some_iff.mp h
    have hfields := of_fieldsToJson?_ofFields hvalues (Json.obj.inj heq)
    exact lasting_fields.mpr (lasting_of_fields fields hfields)

private theorem lasting_of_items : ∀ (items : List Json) {room : Nat},
    (∀ item ∈ items, toJson? room (ofJson item) = some item) → ∀ item ∈ items, item.Lasting
  | [], _, _ => List.forall_mem_nil _
  | item :: items, _, h => by
    obtain ⟨hitem, hitems⟩ := List.forall_mem_cons.mp h
    exact List.forall_mem_cons.mpr
      ⟨lasting_of_toJson?_ofJson item hitem, lasting_of_items items hitems⟩

private theorem lasting_of_fields : ∀ (fields : List (String × Json)) {room : Nat},
    (∀ key j, (key, j) ∈ fields → toJson? room (ofJson j) = some j) →
      ∀ field ∈ fields, field.2.Lasting
  | [], _, _ => List.forall_mem_nil _
  | (key, j) :: fields, _, h => by
    have hj := h key j List.mem_cons_self
    have hfields := lasting_of_fields fields fun key j hj => h key j (List.mem_cons_of_mem _ hj)
    exact List.forall_mem_cons.mpr ⟨lasting_of_toJson?_ofJson j hj, hfields⟩

end

end Source
end ExecutionTrace.Json
