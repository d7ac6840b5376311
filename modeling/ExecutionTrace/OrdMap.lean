/-!
Finite maps kept as lists in ascending order of their keys. Two maps with the same look-ups are
equal, so equality of maps is equality of what they answer.
-/
namespace ExecutionTrace

/-- A finite map with its entries in strictly ascending order of keys. -/
structure OrdMap (κ : Type) (α : Type) [Ord κ] where
  /-- The entries, smallest key first. -/
  toList : List (κ × α)
  ascending : toList.Pairwise (fun a b => compare a.1 b.1 = .lt)
deriving DecidableEq

namespace OrdMap

variable {κ α : Type} [Ord κ]

/-- Replaces the value of a key, or adds the key at its place in the order. -/
def place (k : κ) (v : α) : List (κ × α) → List (κ × α)
  | [] => [(k, v)]
  | (k', v') :: rest =>
    match compare k k' with
    | .lt => (k, v) :: (k', v') :: rest
    | .eq => (k, v) :: rest
    | .gt => (k', v') :: place k v rest

def seek (k : κ) : List (κ × α) → Option α
  | [] => none
  | (k', v') :: rest => if compare k k' = .eq then some v' else seek k rest

def empty : OrdMap κ α := ⟨[], .nil⟩

instance : EmptyCollection (OrdMap κ α) := ⟨empty⟩
instance : Inhabited (OrdMap κ α) := ⟨empty⟩

def get? (m : OrdMap κ α) (k : κ) : Option α := seek k m.toList

def contains (m : OrdMap κ α) (k : κ) : Bool := (m.get? k).isSome

def isEmpty (m : OrdMap κ α) : Bool := m.toList.isEmpty

theorem toList_injective : Function.Injective (toList : OrdMap κ α → List (κ × α)) := by
  rintro ⟨l, hl⟩ ⟨l', hl'⟩ rfl
  rfl

private theorem fst_mem_place {k : κ} {v : α} {l : List (κ × α)} {e : κ × α}
    (h : e ∈ place k v l) : e.1 = k ∨ e ∈ l := by
  induction l with
  | nil => simp_all [place]
  | cons hd tl ih =>
    simp only [place] at h
    split at h <;> simp only [List.mem_cons] at h ⊢ <;> grind

section Laws

variable [Std.TransOrd κ] [Std.LawfulEqOrd κ]

private theorem ascending_place (k : κ) (v : α) {l : List (κ × α)}
    (h : l.Pairwise (fun a b => compare a.1 b.1 = .lt)) :
    (place k v l).Pairwise (fun a b => compare a.1 b.1 = .lt) := by
  induction l with
  | nil => simp [place]
  | cons hd tl ih =>
    obtain ⟨hhd, htl⟩ := List.pairwise_cons.1 h
    simp only [place]
    split
    · next hlt =>
      refine List.pairwise_cons.2 ⟨fun e he => ?_, h⟩
      rcases List.mem_cons.1 he with rfl | he
      · exact hlt
      · exact Std.TransCmp.lt_trans hlt (hhd e he)
    · next heq =>
      have : k = hd.1 := Std.LawfulEqOrd.eq_of_compare heq
      exact List.pairwise_cons.2 ⟨fun e he => this ▸ hhd e he, htl⟩
    · next hgt =>
      refine List.pairwise_cons.2 ⟨fun e he => ?_, ih htl⟩
      rcases fst_mem_place he with hk | he
      · rw [hk]; exact Std.OrientedCmp.lt_of_gt hgt
      · exact hhd e he

def insert (m : OrdMap κ α) (k : κ) (v : α) : OrdMap κ α :=
  ⟨place k v m.toList, ascending_place k v m.ascending⟩

def insertNew (m : OrdMap κ α) (k : κ) (v : α) : OrdMap κ α :=
  if m.contains k then m else m.insert k v

def erase (m : OrdMap κ α) (k : κ) : OrdMap κ α :=
  ⟨m.toList.filter (fun e => compare k e.1 != .eq), m.ascending.filter _⟩

/-- The map with the value of `k`, if it has one, replaced by its image. -/
def adjust (m : OrdMap κ α) (k : κ) (f : α → α) : OrdMap κ α :=
  match m.get? k with
  | some v => m.insert k (f v)
  | none => m

/-- The map of a list of bindings, where a later binding of a key wins. -/
def ofList (l : List (κ × α)) : OrdMap κ α :=
  l.foldl (fun m e => m.insert e.1 e.2) empty

omit [Std.TransOrd κ] in
private theorem seek_place (k k' : κ) (v : α) (l : List (κ × α)) :
    seek k' (place k v l) = if compare k' k = .eq then some v else seek k' l := by
  induction l with
  | nil => simp [place, seek]
  | cons hd tl ih =>
    obtain ⟨kh, vh⟩ := hd
    simp only [place]
    split
    · simp [seek]
    · next heq =>
      have : k = kh := Std.LawfulEqOrd.eq_of_compare heq
      subst this
      by_cases h : compare k' k = .eq <;> simp [seek, h]
    · next hgt =>
      by_cases h : compare k' k = .eq
      · have : k' = k := Std.LawfulEqOrd.eq_of_compare h
        subst this
        simp [seek, hgt, ih]
      · simp [seek, h, ih]

omit [Std.TransOrd κ] [Std.LawfulEqOrd κ] in
@[simp] theorem get?_empty (k : κ) : (empty : OrdMap κ α).get? k = none := rfl

theorem get?_insert [DecidableEq κ] (m : OrdMap κ α) (k k' : κ) (v : α) :
    (m.insert k v).get? k' = if k' = k then some v else m.get? k' := by
  simp [get?, insert, seek_place]

@[simp] theorem get?_insert_self [DecidableEq κ] (m : OrdMap κ α) (k : κ) (v : α) :
    (m.insert k v).get? k = some v := by
  simp [get?_insert]

theorem get?_insertNew [DecidableEq κ] (m : OrdMap κ α) (k k' : κ) (v : α) :
    (m.insertNew k v).get? k' =
      if k' = k then some ((m.get? k).getD v) else m.get? k' := by
  unfold insertNew contains
  cases h : m.get? k with
  | none => simp [get?_insert]
  | some w =>
    by_cases hk : k' = k
    · subst hk; simp [h]
    · simp [hk]

theorem get?_adjust [DecidableEq κ] (m : OrdMap κ α) (k k' : κ) (f : α → α) :
    (m.adjust k f).get? k' = if k' = k then (m.get? k).map f else m.get? k' := by
  unfold adjust
  cases h : m.get? k with
  | none =>
    by_cases hk : k' = k
    · subst hk; simp [h]
    · simp [hk]
  | some w => simp [get?_insert]

omit [Std.TransOrd κ] in
theorem get?_erase [DecidableEq κ] (m : OrdMap κ α) (k k' : κ) :
    (m.erase k).get? k' = if k' = k then none else m.get? k' := by
  obtain ⟨l, hl⟩ := m
  simp only [get?, erase]
  clear hl
  induction l with
  | nil => simp [seek]
  | cons hd tl ih =>
    by_cases h : k = hd.1
    · subst h
      by_cases hk : k' = hd.1
      · subst hk; simp_all
      · simp_all [seek]
    · by_cases hk : k' = hd.1
      · subst hk
        simp [seek, h, Ne.symm h]
      · simp_all [seek]

omit [Std.TransOrd κ] in
theorem mem_toList_iff (m : OrdMap κ α) (k : κ) (v : α) :
    (k, v) ∈ m.toList ↔ m.get? k = some v := by
  obtain ⟨l, hl⟩ := m
  simp only [get?]
  induction l with
  | nil => simp [seek]
  | cons hd tl ih =>
    obtain ⟨hhd, htl⟩ := List.pairwise_cons.1 hl
    by_cases h : k = hd.1
    · subst h
      have : ∀ w, (hd.1, w) ∉ tl := fun w hw => by
        have := hhd _ hw
        simp at this
      simp [seek, this, Prod.ext_iff, eq_comm]
    · have : compare k hd.1 ≠ .eq := by simpa [Std.LawfulEqOrd.compare_eq_iff_eq] using h
      simp [seek, this, Prod.ext_iff, h, ih htl]

omit [Std.LawfulEqOrd κ] in
private theorem place_of_forall_lt {k : κ} (v : α) {l : List (κ × α)}
    (h : ∀ e ∈ l, compare e.1 k = .lt) : place k v l = l ++ [(k, v)] := by
  induction l with
  | nil => rfl
  | cons hd tl ih =>
    obtain ⟨hhd, htl⟩ := List.forall_mem_cons.1 h
    have hgt : compare k hd.1 = .gt := Std.OrientedCmp.gt_of_lt hhd
    rw [place, hgt]
    exact congrArg (hd :: ·) (ih htl)

private theorem toList_foldl_insert (m : OrdMap κ α) (l : List (κ × α))
    (h : (m.toList ++ l).Pairwise (fun a b => compare a.1 b.1 = .lt)) :
    (l.foldl (fun m e => m.insert e.1 e.2) m).toList = m.toList ++ l := by
  induction l generalizing m with
  | nil => exact (List.append_nil _).symm
  | cons e l ih =>
    have hplace : (m.insert e.1 e.2).toList = m.toList ++ [e] :=
      place_of_forall_lt e.2 fun e' he' =>
        (List.pairwise_append.1 h).2.2 e' he' e List.mem_cons_self
    rw [List.append_cons, ← hplace] at h
    rw [List.foldl_cons, ih _ h, hplace, ← List.append_cons]

theorem ofList_toList (m : OrdMap κ α) : ofList m.toList = m :=
  toList_injective (toList_foldl_insert empty m.toList m.ascending)

private theorem of_get?_foldl_insert [DecidableEq κ] {k : κ} {v : α} (m : OrdMap κ α)
    (l : List (κ × α)) (h : (l.foldl (fun m e => m.insert e.1 e.2) m).get? k = some v) :
    m.get? k = some v ∨ (k, v) ∈ l := by
  induction l generalizing m with
  | nil => exact .inl h
  | cons e l ih =>
    obtain hm | hl := ih _ h
    · rw [get?_insert] at hm
      split at hm
      · next hkey =>
        have he : (k, v) = e := Prod.ext hkey (Option.some.inj hm).symm
        exact .inr (he ▸ List.mem_cons_self)
      · exact .inl hm
    · exact .inr (List.mem_cons_of_mem _ hl)

/-- A map has no entries but those that it was made of. -/
theorem of_mem_toList_ofList [DecidableEq κ] {l : List (κ × α)} {k : κ} {v : α}
    (h : (k, v) ∈ (ofList l).toList) : (k, v) ∈ l := by
  obtain hempty | hl := of_get?_foldl_insert empty l ((mem_toList_iff _ k v).1 h)
  · cases hempty
  · exact hl

end Laws
end OrdMap
end ExecutionTrace
