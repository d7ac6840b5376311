import ExecutionTrace.Hex

/-!
Hexadecimal texts determine what they are written for: numbers of any size, and addresses and words
with all their digits.
-/
namespace ExecutionTrace.Hex

private theorem toNat?_append_singleton (text : List Char) (c : Char) :
    toNat? (text ++ [c]) = (toNat? text).bind fun n => (digit? c).map (16 * n + ·) := by
  rw [toNat?, List.foldlM_append]
  simp only [List.foldlM_cons, List.foldlM_nil, bind_pure]
  rfl

private theorem toNat?_toDigits (n : Nat) : toNat? (Nat.toDigits 16 n) = some n := by
  induction n using Nat.strongRecOn with
  | ind n ih =>
    by_cases hsmall : n < 16
    · rw [Nat.toDigits_of_lt_base hsmall, ← List.nil_append [_], toNat?_append_singleton,
        digit?_digitChar hsmall]
      exact congrArg some (Nat.zero_add n)
    · rw [Nat.toDigits_of_base_le (by decide) (by omega), toNat?_append_singleton,
        ih (n / 16) (by omega), digit?_digitChar (Nat.mod_lt n (by decide))]
      exact congrArg some (Nat.div_add_mod n 16)

theorem quantity_injective : Function.Injective quantity := by
  intro m n h
  have hdigits : Nat.toDigits 16 m = Nat.toDigits 16 n := by
    simpa only [quantity, String.ofList_inj, List.cons.injEq, true_and] using h
  have hread := toNat?_toDigits m
  rw [hdigits, toNat?_toDigits n] at hread
  exact (Option.some.inj hread).symm

theorem address_injective : Function.Injective address := by
  intro a b h
  have hbytes := congrArg Bytes.toNat (ofBytes_injective h)
  rw [Address.toBytes, Address.toBytes, Bytes.toNat_ofNat, Bytes.toNat_ofNat,
    Nat.mod_eq_of_lt a.isLt, Nat.mod_eq_of_lt b.isLt] at hbytes
  exact BitVec.eq_of_toNat_eq hbytes

theorem toBytes?_ofBytes (bytes : Bytes) : toBytes? (ofBytes bytes) = some bytes := by
  rw [toBytes?, ofBytes, String.toList_ofList, unprefixed, bytes?_digits]

theorem toWord?_word (w : Word) : toWord? (word w) = some w := by
  simp [toWord?, word, toBytes?_ofBytes]

theorem word_injective : Function.Injective word := by
  intro v w h
  have hread := toWord?_word v
  rw [h, toWord?_word] at hread
  exact (Option.some.inj hread).symm

end ExecutionTrace.Hex
