import ExecutionTrace.Operand

/-! What an operand is read to be. Offsets and lengths are words, but memory is addressed with 64
bits. Which ranges are there, and what is wrong with any other, is told in numbers without a
bound. -/
namespace ExecutionTrace

theorem ok_bind {ε α β : Type} (x : α) (f : α → Except ε β) :
    (Except.ok x >>= f) = f x := rfl

theorem bind_ok_iff {ε α β : Type} {x : Except ε α} {f : α → Except ε β} {b : β} :
    (x >>= f) = .ok b ↔ ∃ a, x = .ok a ∧ f a = .ok b := by
  cases x with
  | error err =>
    constructor
    · intro h
      cases h
    · rintro ⟨_, h, _⟩
      cases h
  | ok a =>
    constructor
    · intro h
      exact ⟨a, rfl, h⟩
    · rintro ⟨_, h, hb⟩
      cases h
      exact hb

namespace Operand

/-- A range that is inside a memory. An empty one is, whatever its offset. -/
def Inside (memory : Bytes) (offset length : Word) : Prop :=
  length = 0 ∨ offset.toNat + length.toNat ≤ memory.length

/-- The fault of a range that is not inside. What 64 bits do not hold comes before the memory that
is missed, and the length before the offset. -/
def faultOf (memory : Bytes) (offset length : Word) : OperandFault :=
  if UInt64.size ≤ length.toNat then .tooLarge length
  else if UInt64.size ≤ offset.toNat ∨ UInt64.size ≤ offset.toNat + length.toNat then
    .tooLarge offset
  else .outOfBounds offset.toNat (offset.toNat + length.toNat) memory.length

theorem peek_eq_ok_iff {words : List Word} {index : Nat} {word : Word} :
    peek words index = .ok word ↔ words[index]? = some word := by
  unfold peek
  cases words[index]? <;> simp

/-! ### Numbers of 64 bits -/

theorem size_eq_ok_iff {word : Word} {n : Nat} :
    size word = .ok n ↔ word.toNat < UInt64.size ∧ word.toNat = n := by
  unfold size
  split
  · next hfits => simp [hfits]
  · next hlarge => simp [hlarge]

theorem size_of_fits {word : Word} (h : word.toNat < UInt64.size) : size word = .ok word.toNat :=
  if_pos h

private theorem size_of_large {word : Word} (h : UInt64.size ≤ word.toNat) :
    size word = .error (.tooLarge word) :=
  if_neg (Nat.not_lt.mpr h)

/-- Two words cut to 64 bits and added lose nothing exactly if 64 bits hold the sum. -/
private theorem toNat_add_setWidth_iff (a b : Word) :
    (a.setWidth 64 + b.setWidth 64).toNat = a.toNat + b.toNat ↔
      a.toNat + b.toNat < UInt64.size := by
  constructor
  · intro h
    rw [← h]
    exact (a.setWidth 64 + b.setWidth 64).isLt
  · intro h
    have ha : a.toNat < UInt64.size := Nat.lt_of_le_of_lt (Nat.le_add_right _ _) h
    have hb : b.toNat < UInt64.size := Nat.lt_of_le_of_lt (Nat.le_add_left _ _) h
    rw [BitVec.toNat_add, BitVec.toNat_setWidth, BitVec.toNat_setWidth, Nat.mod_eq_of_lt ha,
      Nat.mod_eq_of_lt hb]
    exact Nat.mod_eq_of_lt h

/-! ### Ranges of memory -/

section Ranges

variable {memory bytes : Bytes} {offset length : Word} {fault : OperandFault}

theorem slice_of_inside (hmemory : memory.length < UInt64.size) (h : Inside memory offset length) :
    slice memory offset length = .ok ((memory.drop offset.toNat).take length.toNat) := by
  rcases h with rfl | hend
  · rfl
  · have hlength : length.toNat < UInt64.size := by omega
    have hoffset : offset.toNat < UInt64.size := by omega
    have hstop : ¬UInt64.size ≤ offset.toNat + length.toNat := by omega
    have hinside : ¬memory.length < offset.toNat + length.toNat := by omega
    simp only [slice, size_of_fits hlength, size_of_fits hoffset, ok_bind, if_neg hstop,
      if_neg hinside]
    split
    · next hzero => rw [hzero]; rfl
    · rfl

private theorem slice_of_large_length (memory : Bytes) (offset : Word)
    (h : UInt64.size ≤ length.toNat) : slice memory offset length = .error (.tooLarge length) := by
  rw [slice, size_of_large h]
  rfl

private theorem slice_of_large_end (memory : Bytes) (hzero : length.toNat ≠ 0)
    (hlength : length.toNat < UInt64.size) (h : UInt64.size ≤ offset.toNat + length.toNat) :
    slice memory offset length = .error (.tooLarge offset) := by
  rw [slice, size_of_fits hlength, ok_bind, if_neg hzero]
  -- The offset itself may be too large, or only the end.
  rcases Nat.lt_or_ge offset.toNat UInt64.size with hoffset | hoffset
  · rw [size_of_fits hoffset, ok_bind, if_pos h]
    rfl
  · rw [size_of_large hoffset]
    rfl

private theorem slice_of_missed (hzero : length.toNat ≠ 0)
    (hend : offset.toNat + length.toNat < UInt64.size)
    (h : memory.length < offset.toNat + length.toNat) :
    slice memory offset length =
      .error (.outOfBounds offset.toNat (offset.toNat + length.toNat) memory.length) := by
  have hlength : length.toNat < UInt64.size := by omega
  have hoffset : offset.toNat < UInt64.size := by omega
  rw [slice, size_of_fits hlength, ok_bind, if_neg hzero, size_of_fits hoffset, ok_bind,
    if_neg (Nat.not_le.mpr hend), if_pos h]
  rfl

private theorem slice_of_not_inside (h : ¬Inside memory offset length) :
    slice memory offset length = .error (faultOf memory offset length) := by
  obtain ⟨hlength, hend⟩ := not_or.mp h
  have hzero : length.toNat ≠ 0 := fun hzero => hlength (BitVec.eq_of_toNat_eq hzero)
  unfold faultOf
  split
  · next hlarge => exact slice_of_large_length memory offset hlarge
  · split
    · exact slice_of_large_end memory hzero (by omega) (by omega)
    · exact slice_of_missed hzero (by omega) (by omega)

theorem slice_eq_ok_iff (hmemory : memory.length < UInt64.size) :
    slice memory offset length = .ok bytes ↔
      Inside memory offset length ∧ bytes = (memory.drop offset.toNat).take length.toNat := by
  by_cases h : Inside memory offset length
  · rw [slice_of_inside hmemory h, Except.ok.injEq, and_iff_right h, eq_comm]
  · rw [slice_of_not_inside h]
    constructor
    · intro hslice
      cases hslice
    · intro hslice
      exact absurd hslice.1 h

theorem slice_eq_error_iff (hmemory : memory.length < UInt64.size) :
    slice memory offset length = .error fault ↔
      ¬Inside memory offset length ∧ fault = faultOf memory offset length := by
  by_cases h : Inside memory offset length
  · rw [slice_of_inside hmemory h]
    constructor
    · intro hslice
      cases hslice
    · intro hslice
      exact absurd h hslice.1
  · rw [slice_of_not_inside h, Except.error.injEq, and_iff_right h, eq_comm]

/-- A part of a byte string, told by its length and its bytes one by one. -/
private theorem eq_take_drop_iff {start count : Nat}
    (h : count = 0 ∨ start + count ≤ memory.length) : bytes = (memory.drop start).take count ↔
      bytes.length = count ∧ ∀ i < count, bytes[i]? = memory[start + i]? := by
  constructor
  · rintro rfl
    refine ⟨?_, fun i hi => ?_⟩
    · rw [List.length_take, List.length_drop]
      omega
    · rw [List.getElem?_take_of_lt hi, List.getElem?_drop]
  · rintro ⟨hlength, hbytes⟩
    apply List.ext_getElem?
    intro i
    rcases Nat.lt_or_ge i count with hi | hi
    · rw [hbytes i hi, List.getElem?_take_of_lt hi, List.getElem?_drop]
    · rw [List.getElem?_eq_none (hlength ▸ hi), List.getElem?_take_eq_none hi]

private theorem faultOf_tooLarge_iff :
    (∃ word, .tooLarge word = faultOf memory offset length) ↔
      UInt64.size ≤ offset.toNat + length.toNat := by
  unfold faultOf
  split
  · exact ⟨fun _ => by omega, fun _ => ⟨length, rfl⟩⟩
  · split
    · exact ⟨fun _ => by omega, fun _ => ⟨offset, rfl⟩⟩
    · next hends =>
      constructor
      · rintro ⟨word, h⟩
        cases h
      · intro h
        exact absurd (.inr h) hends

/-- Some word is too large exactly if the range is not empty and its end, summed in 64 bits, is
another number than the sum of offset and length. -/
theorem slice_tooLarge_iff (hmemory : memory.length < UInt64.size) :
    (∃ word, slice memory offset length = .error (.tooLarge word)) ↔
      length ≠ 0 ∧
        (offset.setWidth 64 + length.setWidth 64).toNat ≠ offset.toNat + length.toNat := by
  simp only [slice_eq_error_iff hmemory, exists_and_left, faultOf_tooLarge_iff, ne_eq,
    toNat_add_setWidth_iff, Nat.not_lt]
  refine and_congr_left fun hlarge => ?_
  constructor
  · intro hinside hzero
    exact hinside (.inl hzero)
  · rintro hzero (hempty | hend)
    · exact hzero hempty
    · omega

end Ranges

/-- A slice is given exactly if its range is inside the memory, and it has the bytes of that range
in order. Any other range gives its fault, and no end comes round: the fault is a number that is too
large exactly if the range is not empty and 64 bits would lose a part of the sum that is its end. -/
theorem slice_of_operands {memory : Bytes} (hmemory : memory.length < UInt64.size)
    (offset length : Word) :
    (∀ bytes, slice memory offset length = .ok bytes ↔ Inside memory offset length ∧
      bytes.length = length.toNat ∧ ∀ i < length.toNat, bytes[i]? = memory[offset.toNat + i]?) ∧
    (∀ fault, slice memory offset length = .error fault ↔
      ¬Inside memory offset length ∧ fault = faultOf memory offset length) ∧
    ((∃ word, slice memory offset length = .error (.tooLarge word)) ↔
      length ≠ 0 ∧
        (offset.setWidth 64 + length.setWidth 64).toNat ≠ offset.toNat + length.toNat) := by
  refine ⟨fun bytes => ?_, fun fault => slice_eq_error_iff hmemory, slice_tooLarge_iff hmemory⟩
  rw [slice_eq_ok_iff hmemory]
  refine and_congr_right fun hinside => eq_take_drop_iff ?_
  exact hinside.imp_left (congrArg BitVec.toNat)

/-- A range up to the last byte is given, a byte more is missed, and an end beyond 64 bits does not
come round to the first byte. -/
theorem slice_of_ends :
    ([1, 2, 3, 4, 5] : Bytes).length < UInt64.size ∧
      slice [1, 2, 3, 4, 5] 2 3 = .ok [3, 4, 5] ∧
      slice [1, 2, 3, 4, 5] 2 4 = .error (.outOfBounds 2 6 5) ∧
      slice [1, 2, 3, 4, 5] 0xfffffffffffffffe 3 = .error (.tooLarge 0xfffffffffffffffe) := by
  have hmemory : ([1, 2, 3, 4, 5] : Bytes).length < UInt64.size := by decide
  obtain ⟨hlast, _⟩ := slice_of_operands hmemory 2 3
  obtain ⟨_, hmissed, _⟩ := slice_of_operands hmemory 2 4
  obtain ⟨_, hlarge, _⟩ := slice_of_operands hmemory 0xfffffffffffffffe 3
  refine ⟨hmemory, (hlast _).mpr ⟨.inr (by decide), rfl, by decide⟩, (hmissed _).mpr ⟨?_, rfl⟩,
    (hlarge _).mpr ⟨?_, rfl⟩⟩
  · rintro (hzero | hend)
    · cases hzero
    · exact absurd hend (by decide)
  · rintro (hzero | hend)
    · cases hzero
    · exact absurd hend (by decide)

end Operand
end ExecutionTrace
