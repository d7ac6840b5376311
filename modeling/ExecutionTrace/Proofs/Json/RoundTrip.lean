import ExecutionTrace.Proofs.Json.Lexical

/-!
The text of a value is read back: what it writes is the value, and nothing of the text that follows
is taken. So two values with one text are one value, if neither has doubles inside.
-/
namespace ExecutionTrace.Json

mutual

def doubles : Json → List Double
  | real x => [x]
  | arr items => doublesOfItems items
  | obj fields => doublesOfFields fields
  | _ => []

def doublesOfItems : List Json → List Double
  | [] => []
  | item :: items => doubles item ++ doublesOfItems items

def doublesOfFields : List (String × Json) → List Double
  | [] => []
  | (_, value) :: fields => doubles value ++ doublesOfFields fields

end

namespace Source

mutual

/-- What the text of a value writes. -/
def ofJson : Json → Source
  | .null => .null
  | .bool b => .bool b
  | .int i => .num (.ofInt i)
  | .real x => .num x.numeral
  | .str s => .str (some s)
  | .arr items => .arr (ofItems items)
  | .obj fields => .obj (ofFields fields)

def ofItems : List Json → List Source
  | [] => []
  | item :: items => ofJson item :: ofItems items

def ofFields : List (String × Json) → List (Option String × Source)
  | [] => []
  | (key, value) :: fields => (some key, ofJson value) :: ofFields fields

end

mutual

theorem ofJson_injective : ∀ {a b : Json}, a.doubles = [] → b.doubles = [] →
    ofJson a = ofJson b → a = b
  | .null, b, _, _, h => by cases b <;> simp_all [ofJson]
  | .bool _, b, _, _, h => by cases b <;> simp_all [ofJson]
  | .int i, b, _, hb, h => by
    cases b with
    | int i' =>
      simp only [ofJson, Source.num.injEq, Numeral.ofInt, Numeral.mk.injEq, decide_eq_decide] at h
      exact congrArg Json.int (by omega)
    | real x => cases hb
    | _ => simp [ofJson] at h
  | .real _, b, ha, _, h => by cases ha
  | .str _, b, _, _, h => by cases b <;> simp_all [ofJson]
  | .arr items, b, ha, hb, h => by
    cases b with
    | arr items' => exact congrArg Json.arr (ofItems_injective ha hb (Source.arr.inj h))
    | _ => simp [ofJson] at h
  | .obj fields, b, ha, hb, h => by
    cases b with
    | obj fields' => exact congrArg Json.obj (ofFields_injective ha hb (Source.obj.inj h))
    | _ => simp [ofJson] at h

private theorem ofItems_injective : ∀ {a b : List Json}, doublesOfItems a = [] → doublesOfItems b =
    [] →
    ofItems a = ofItems b → a = b
  | [], b, _, _, h => by cases b <;> simp_all [ofItems]
  | item :: items, b, ha, hb, h => by
    cases b with
    | nil => simp [ofItems] at h
    | cons item' items' =>
      obtain ⟨hitem, hitems⟩ := List.append_eq_nil_iff.mp ha
      obtain ⟨hitem', hitems'⟩ := List.append_eq_nil_iff.mp hb
      simp only [ofItems, List.cons.injEq] at h
      rw [ofJson_injective hitem hitem' h.1, ofItems_injective hitems hitems' h.2]

private theorem ofFields_injective : ∀ {a b : List (String × Json)}, doublesOfFields a = [] →
    doublesOfFields b = [] → ofFields a = ofFields b → a = b
  | [], b, _, _, h => by cases b <;> simp_all [ofFields]
  | (key, value) :: fields, b, ha, hb, h => by
    cases b with
    | nil => simp [ofFields] at h
    | cons field' fields' =>
      obtain ⟨key', value'⟩ := field'
      obtain ⟨hvalue, hfields⟩ := List.append_eq_nil_iff.mp ha
      obtain ⟨hvalue', hfields'⟩ := List.append_eq_nil_iff.mp hb
      simp only [ofFields, List.cons.injEq, Prod.mk.injEq, Option.some.injEq] at h
      rw [h.1.1, ofJson_injective hvalue hvalue' h.1.2, ofFields_injective hfields hfields' h.2]

end

/-! ### How a text starts -/

def starts (c : Char) : Bool := c ∈ ['n', 't', 'f', '"', '[', '{', '-'] || c.isDigit

theorem skip_cons {c : Char} (h : isBlank c = false) (cs : List Char) :
    skip (c :: cs) = c :: cs := by
  rw [skip, h, if_neg Bool.false_ne_true]

private theorem skip_of_starts {c : Char} (h : starts c = true) (cs : List Char) :
    skip (c :: cs) = c :: cs := by
  refine skip_cons (Bool.eq_false_iff.mpr fun hblank => ?_) cs
  simp only [isBlank, Bool.or_eq_true, decide_eq_true_eq] at hblank
  obtain ((rfl | rfl) | rfl) | rfl := hblank <;> exact absurd h (by decide)

private theorem starts_of_numeral {c : Char} (h : c = '-' ∨ c.isDigit = true) :
    starts c = true := by
  obtain rfl | hdigit := h
  · rfl
  · rw [starts, hdigit, Bool.or_true]

private theorem starts_numeral (n : Numeral) (rest : List Char) :
    ∃ c cs, n.write rest = c :: (cs ++ rest) ∧ (c = '-' ∨ c.isDigit = true) := by
  obtain ⟨c, digits, hd, hc⟩ := toDigits_eq_cons n.whole
  rw [Numeral.write, hd]
  cases n.negative with
  | false => exact ⟨c, digits ++ (n.writeFraction ++ n.writeExponent), by simp, .inr hc⟩
  | true => exact ⟨'-', c :: digits ++ (n.writeFraction ++ n.writeExponent), by simp, .inl rfl⟩

private theorem write_starts (j : Json) (rest : List Char) :
    ∃ c cs, write j rest = c :: cs ∧ starts c = true := by
  cases j with
  | int i =>
    obtain ⟨c, cs, hi, hc⟩ := starts_numeral (.ofInt i) rest
    exact ⟨c, cs ++ rest, hi, starts_of_numeral hc⟩
  | real x =>
    obtain ⟨c, cs, hx, hc⟩ := starts_numeral x.numeral rest
    exact ⟨c, cs ++ rest, hx, starts_of_numeral hc⟩
  | bool b => cases b <;> exact ⟨_, _, by rw [write], rfl⟩
  | _ => exact ⟨_, _, by rw [write]; try rfl, rfl⟩

/-! ### The length of a text -/

mutual

private theorem length_lt_write : ∀ (j : Json) (rest : List Char), rest.length <
    (write j rest).length
  | .null, rest => by simp only [write, List.length_cons]; omega
  | .bool true, rest => by simp only [write, List.length_cons]; omega
  | .bool false, rest => by simp only [write, List.length_cons]; omega
  | .int i, rest => by
    obtain ⟨c, cs, hi, _⟩ := starts_numeral (.ofInt i) rest
    rw [write, hi, List.length_cons, List.length_append]
    omega
  | .real x, rest => by
    obtain ⟨c, cs, hx, _⟩ := starts_numeral x.numeral rest
    rw [write, hx, List.length_cons, List.length_append]
    omega
  | .str s, rest => by
    simp only [write, writeString, List.length_append, List.length_cons]
    omega
  | .arr items, rest => by
    have := length_le_writeItems true items (']' :: rest)
    simp only [write, List.length_cons] at this ⊢
    omega
  | .obj fields, rest => by
    have := length_le_writeFields true fields ('}' :: rest)
    simp only [write, List.length_cons] at this ⊢
    omega

private theorem length_le_writeItems (first : Bool) : ∀ (items : List Json) (rest : List Char),
    items.length + rest.length ≤ (writeItems first items rest).length
  | [], rest => Nat.le_of_eq (by rw [writeItems, List.length_nil, Nat.zero_add])
  | item :: items, rest => by
    have hitems := length_le_writeItems false items rest
    have hitem := length_lt_write item (writeItems false items rest)
    simp only [writeItems, List.length_append, List.length_cons]
    omega

theorem length_le_writeFields (first : Bool) :
    ∀ (fields : List (String × Json)) (rest : List Char),
      fields.length + rest.length ≤ (writeFields first fields rest).length
  | [], rest => Nat.le_of_eq (by rw [writeFields, List.length_nil, Nat.zero_add])
  | (key, value) :: fields, rest => by
    have hfields := length_le_writeFields false fields rest
    have hvalue := length_lt_write value (writeFields false fields rest)
    simp only [writeFields, writeString, List.length_append, List.length_cons]
    omega

end

/-! ### Values -/

private theorem value_numeral {c : Char} (hc : c = '-' ∨ c.isDigit = true) (fuel : Nat)
    (cs : List Char) :
    value (fuel + 1) (c :: cs) = (numeral (c :: cs)).map fun (n, rest) => (.num n, rest) := by
  rw [value, skip_of_starts (starts_of_numeral hc)]
  split
  case h_7 => rfl
  all_goals
    -- no word, string, array or object starts as a numeral does
    rename_i heq
    obtain ⟨rfl, _⟩ := List.cons.inj heq
    exact absurd hc (by decide)

theorem value_write_numeral {n : Numeral} (h : n.fraction < Nat.pow 10 n.places) (fuel : Nat)
    {rest : List Char} (hrest : Closes rest) :
    value (fuel + 1) (n.write rest) = some (.num n, rest) := by
  have hread := numeral_write n hrest h
  obtain ⟨c, cs, hn, hc⟩ := starts_numeral n rest
  rw [hn] at hread ⊢
  rw [value_numeral hc, hread]
  rfl

private theorem value_string (s : String) (fuel : Nat) (rest : List Char) :
    value (fuel + 1) (writeString s rest) = some (.str (some s), rest) := by
  rw [writeString, value, skip_cons rfl]
  simp only [string_writeString, Option.map_some]

/-! ### Items and fields -/

private theorem writeItems_cons (item : Json) (items : List Json) (rest : List Char) :
    writeItems true (item :: items) rest = write item (writeItems false items rest) := by
  rw [writeItems]
  rfl

private theorem writeItems_false (item : Json) (items : List Json) (rest : List Char) :
    writeItems false (item :: items) rest = ',' :: writeItems true (item :: items) rest := by
  rw [writeItems, writeItems]
  rfl

theorem writeFields_cons (key : String) (j : Json) (fields : List (String × Json))
    (rest : List Char) : writeFields true ((key, j) :: fields) rest =
      writeString key (':' :: write j (writeFields false fields rest)) := by
  rw [writeFields]
  rfl

theorem writeFields_false (field : String × Json) (fields : List (String × Json))
    (rest : List Char) :
    writeFields false (field :: fields) rest = ',' :: writeFields true (field :: fields) rest := by
  rw [writeFields, writeFields]
  rfl

private theorem value_array (fuel : Nat) (item : Json) (items : List Json) (rest : List Char) :
    value (fuel + 1) ('[' :: writeItems true (item :: items) rest) =
      Source.items fuel [] (writeItems true (item :: items) rest) := by
  obtain ⟨c, cs, hitem, hc⟩ := write_starts item (writeItems false items rest)
  rw [value, skip_cons rfl, writeItems_cons, hitem]
  simp only [skip_of_starts hc]
  split
  · next heq =>
    obtain ⟨rfl, _⟩ := List.cons.inj heq
    exact absurd hc (by decide)
  · rfl

private theorem value_object (fuel : Nat) (key : String) (j : Json) (fields : List (String × Json))
    (rest : List Char) : value (fuel + 1) ('{' :: writeFields true ((key, j) :: fields) rest) =
      Source.fields fuel [] (writeFields true ((key, j) :: fields) rest) := by
  rw [value, skip_cons rfl, writeFields_cons, writeString]
  rfl

section Steps

variable {fuel : Nat} {cs rest : List Char} {item : Source}

private theorem items_comma (read : List Source) (h : value fuel cs = some (item, ',' :: rest)) :
    items (fuel + 1) read cs = items fuel (item :: read) rest := by
  rw [items, h]
  rfl

private theorem items_last (read : List Source) (h : value fuel cs = some (item, ']' :: rest)) :
    items (fuel + 1) read cs = some (.arr (item :: read).reverse, rest) := by
  rw [items, h]
  rfl

private theorem fields_comma (key : String) (read : List (Option String × Source))
    (h : value fuel cs = some (item, ',' :: rest)) :
    fields (fuel + 1) read (writeString key (':' :: cs)) =
      fields fuel ((some key, item) :: read) rest := by
  rw [writeString, fields, skip_cons rfl]
  simp only [string_writeString, skip_cons (c := ':') rfl, h]
  rfl

private theorem fields_last (key : String) (read : List (Option String × Source))
    (h : value fuel cs = some (item, '}' :: rest)) :
    fields (fuel + 1) read (writeString key (':' :: cs)) =
      some (.obj ((some key, item) :: read).reverse, rest) := by
  rw [writeString, fields, skip_cons rfl]
  simp only [string_writeString, skip_cons (c := ':') rfl, h]
  rfl

end Steps

/-! ### Whole values -/

-- The induction is on the value. Of two steps of the reader at least one takes a character, so
-- twice the length of what is written is fuel enough, whatever the text goes on with.
mutual

theorem value_write : ∀ (j : Json) (fuel : Nat) (rest : List Char), Closes rest →
    2 * (write j rest).length ≤ fuel + 2 * rest.length →
      value fuel (write j rest) = some (ofJson j, rest)
  | j, 0, rest, hrest, hfuel => by
    have := length_lt_write j rest
    omega
  | .null, fuel + 1, rest, hrest, hfuel => by
    rw [write, value, skip_cons rfl]
    rfl
  | .bool true, fuel + 1, rest, hrest, hfuel => by
    rw [write, value, skip_cons rfl]
    rfl
  | .bool false, fuel + 1, rest, hrest, hfuel => by
    rw [write, value, skip_cons rfl]
    rfl
  | .int i, fuel + 1, rest, hrest, hfuel => by
    rw [write, value_write_numeral Nat.zero_lt_one fuel hrest, ofJson]
  | .real x, fuel + 1, rest, hrest, hfuel => by
    rw [write, value_write_numeral x.fraction_numeral fuel hrest, ofJson]
  | .str s, fuel + 1, rest, hrest, hfuel => by
    rw [write, value_string, ofJson]
  | .arr [], fuel + 1, rest, hrest, hfuel => by
    rw [write, writeItems, value, skip_cons rfl]
    rfl
  | .arr (item :: items), fuel + 1, rest, hrest, hfuel => by
    rw [write, List.length_cons] at hfuel
    rw [write, value_array, items_writeItems (item :: items) (List.cons_ne_nil _ _) [] (by omega)]
    rfl
  | .obj [], fuel + 1, rest, hrest, hfuel => by
    rw [write, writeFields, value, skip_cons rfl]
    rfl
  | .obj ((key, j) :: fields), fuel + 1, rest, hrest, hfuel => by
    rw [write, List.length_cons] at hfuel
    rw [write, value_object,
      fields_writeFields ((key, j) :: fields) (List.cons_ne_nil _ _) [] (by omega)]
    rfl

private theorem items_writeItems : ∀ (l : List Json), l ≠ [] → ∀ (read : List Source) {fuel : Nat}
    {rest : List Char},
    2 * (writeItems true l (']' :: rest)).length ≤ fuel + 1 + 2 * rest.length →
      items fuel read (writeItems true l (']' :: rest)) =
        some (.arr (read.reverse ++ ofItems l), rest)
  | [], hne, read, fuel, rest, hfuel => absurd rfl hne
  | item :: more, hne, read, 0, rest, hfuel => by
    have := length_le_writeItems true (item :: more) (']' :: rest)
    simp only [List.length_cons] at this
    omega
  | [item], hne, read, fuel + 1, rest, hfuel => by
    rw [writeItems_cons, writeItems] at hfuel ⊢
    have hitem := value_write item fuel (']' :: rest) (.inr (.inl rfl)) (by
      rw [List.length_cons]
      omega)
    rw [items_last read hitem, List.reverse_cons, ofItems, ofItems]
  | item :: next :: more, hne, read, fuel + 1, rest, hfuel => by
    have hlength := length_lt_write item (writeItems false (next :: more) (']' :: rest))
    have hafter := length_le_writeItems true (next :: more) (']' :: rest)
    rw [writeItems_cons, writeItems_false] at hfuel ⊢
    rw [writeItems_false] at hlength
    simp only [List.length_cons] at hlength hafter
    have hitem := value_write item fuel (',' :: writeItems true (next :: more) (']' :: rest))
      (.inl rfl) (by
        rw [List.length_cons]
        omega)
    rw [items_comma read hitem, items_writeItems (next :: more) (List.cons_ne_nil _ _)
      (ofJson item :: read) (by omega), List.reverse_cons, List.append_assoc, ofItems]
    rfl

private theorem fields_writeFields : ∀ (l : List (String × Json)), l ≠ [] →
    ∀ (read : List (Option String × Source)) {fuel : Nat} {rest : List Char},
    2 * (writeFields true l ('}' :: rest)).length ≤ fuel + 1 + 2 * rest.length →
      fields fuel read (writeFields true l ('}' :: rest)) =
        some (.obj (read.reverse ++ ofFields l), rest)
  | [], hne, read, fuel, rest, hfuel => absurd rfl hne
  | field :: more, hne, read, 0, rest, hfuel => by
    have := length_le_writeFields true (field :: more) ('}' :: rest)
    simp only [List.length_cons] at this
    omega
  | [(key, j)], hne, read, fuel + 1, rest, hfuel => by
    rw [writeFields_cons, writeFields] at hfuel ⊢
    have hvalue := value_write j fuel ('}' :: rest) (.inr (.inr rfl)) (by
      simp only [writeString, List.length_append, List.length_cons] at hfuel ⊢
      omega)
    rw [fields_last key read hvalue, List.reverse_cons, ofFields, ofFields]
  | (key, j) :: next :: more, hne, read, fuel + 1, rest, hfuel => by
    have hlength := length_lt_write j (writeFields false (next :: more) ('}' :: rest))
    have hafter := length_le_writeFields true (next :: more) ('}' :: rest)
    rw [writeFields_cons, writeFields_false] at hfuel ⊢
    rw [writeFields_false] at hlength
    simp only [writeString, List.length_append, List.length_cons] at hfuel hlength hafter
    have hvalue := value_write j fuel (',' :: writeFields true (next :: more) ('}' :: rest))
      (.inl rfl) (by
        rw [List.length_cons]
        omega)
    rw [fields_comma key read hvalue, fields_writeFields (next :: more) (List.cons_ne_nil _ _)
      ((some key, ofJson j) :: read) (by omega), List.reverse_cons, List.append_assoc, ofFields]
    rfl

end

/-- A written value is read back, and what follows it is left. -/
theorem read_write (j : Json) {rest : List Char} (hrest : Closes rest) :
    read (write j rest) = some (ofJson j, rest) :=
  value_write j _ rest hrest (by omega)

end Source

/-- Values without doubles are the same if they have the same text. -/
theorem eq_of_render_eq {a b : Json} (ha : a.doubles = []) (hb : b.doubles = [])
    (h : a.render = b.render) : a = b := by
  have htext : write a [] = write b [] := String.ofList_inj.mp h
  have hends : Closes [] := trivial
  have hread := Source.read_write a hends
  rw [htext, Source.read_write b hends] at hread
  exact (Source.ofJson_injective hb ha (congrArg Prod.fst (Option.some.inj hread))).symm

end ExecutionTrace.Json
