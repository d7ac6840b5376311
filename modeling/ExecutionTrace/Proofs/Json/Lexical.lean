import ExecutionTrace.Json.Source

/-!
Numbers and strings of a text: what is written for them is read back, whatever follows.
-/
namespace ExecutionTrace.Json
open Source

/-- What may follow a value in a text: the end, a comma, or the end of an array or object. -/
def Closes : List Char → Prop
  | [] => True
  | c :: _ => c = ',' ∨ c = ']' ∨ c = '}'

/-- The text does not start with a digit, so digits in front of it end there. -/
def NoDigit : List Char → Prop
  | [] => True
  | c :: _ => c.isDigit = false

private theorem Closes.noDigit {rest : List Char} (h : Closes rest) : NoDigit rest := by
  cases rest with
  | nil => trivial
  | cons c rest => obtain rfl | rfl | rfl := h <;> rfl

namespace Source

private theorem digitRun_append {digits rest : List Char} (hdigits : ∀ c ∈ digits, c.isDigit = true)
    (hrest : NoDigit rest) (value count : Nat) :
    digitRun value count (digits ++ rest) =
      (Nat.ofDigitChars 10 digits value, count + digits.length, rest) := by
  induction digits generalizing value count with
  | nil =>
    cases rest with
    | nil => rfl
    | cons c rest =>
      have hc : c.isDigit = false := hrest
      simp [digitRun, hc]
  | cons c digits ih =>
    obtain ⟨hc, hdigits⟩ := List.forall_mem_cons.mp hdigits
    rw [List.cons_append, digitRun, if_pos hc, ih hdigits, Nat.ofDigitChars_cons, List.length_cons]
    simp only [Nat.add_assoc, Nat.add_comm 1]
    rfl

private theorem digitRun_toDigits (n : Nat) {rest : List Char} (hrest : NoDigit rest) :
    digitRun 0 0 (Nat.toDigits 10 n ++ rest) = (n, (Nat.toDigits 10 n).length, rest) := by
  have hdigits : ∀ c ∈ Nat.toDigits 10 n, c.isDigit = true := fun c hc =>
    Nat.isDigit_of_mem_toDigits (by decide) (by decide) hc
  rw [digitRun_append hdigits hrest, Nat.ofDigitChars_ten_toDigits, Nat.zero_add]

theorem toDigits_eq_cons (n : Nat) :
    ∃ c digits, Nat.toDigits 10 n = c :: digits ∧ c.isDigit = true := by
  cases hd : Nat.toDigits 10 n with
  | nil => exact absurd hd Nat.toDigits_ne_nil
  | cons c digits =>
    refine ⟨c, digits, rfl, ?_⟩
    apply Nat.isDigit_of_mem_toDigits (b := 10) (n := n) (by decide) (by decide)
    rw [hd]
    exact List.mem_cons_self

/-- Zero is written as one digit, and no other number starts with a zero. -/
private theorem toDigits_head {n : Nat} (h : n ≠ 0) (digits : List Char) :
    Nat.toDigits 10 n ≠ '0' :: digits := by
  induction n using Nat.strongRecOn generalizing digits with
  | ind n ih =>
    intro heq
    by_cases hsmall : n < 10
    · rw [Nat.toDigits_of_lt_base hsmall] at heq
      have hdigit : ∀ m < 10, m ≠ 0 → Nat.digitChar m ≠ '0' := by decide
      exact hdigit n hsmall h (List.cons.inj heq).1
    · have hinner : n / 10 ≠ 0 := by omega
      rw [Nat.toDigits_of_base_le (by decide) (by omega)] at heq
      cases hd : Nat.toDigits 10 (n / 10) with
      | nil => exact Nat.toDigits_ne_nil hd
      | cons c rest =>
        rw [hd, List.cons_append] at heq
        obtain ⟨rfl, _⟩ := List.cons.inj heq
        exact ih (n / 10) (by omega) hinner rest hd

private theorem wholePart_toDigits (n : Nat) {rest : List Char} (hrest : NoDigit rest) :
    wholePart (Nat.toDigits 10 n ++ rest) = some (n, rest) := by
  by_cases hzero : n = 0
  · subst hzero
    cases rest with
    | nil => rfl
    | cons c rest =>
      have hc : c.isDigit = false := hrest
      simp [wholePart, hc]
  · have hrun := digitRun_toDigits n hrest
    have hhead := toDigits_head hzero
    obtain ⟨c, digits, hd, _⟩ := toDigits_eq_cons n
    have hc : c ≠ '0' := fun hc => hhead digits (hc ▸ hd)
    rw [hd] at hrun ⊢
    rw [wholePart, hrun]
    · rfl
    all_goals simp [hc]

/-! ### Numerals -/

open Numeral

private theorem isDigit_digitChar {n : Nat} (h : n < 10) : (Nat.digitChar n).isDigit = true := by
  have hmem : Nat.digitChar n ∈ Nat.toDigits 10 n := by
    rw [Nat.toDigits_of_lt_base h]
    exact List.mem_singleton_self _
  exact Nat.isDigit_of_mem_toDigits (by decide) (by decide) hmem

private theorem isDigit_of_mem_lastDigits {count n : Nat} {c : Char}
    (h : c ∈ lastDigits count n) : c.isDigit = true := by
  induction count generalizing n with
  | zero => cases h
  | succ count ih =>
    obtain hbefore | hlast := List.mem_append.mp h
    · exact ih hbefore
    · rw [List.mem_singleton.mp hlast]
      exact isDigit_digitChar (Nat.mod_lt n (by decide))

private theorem length_lastDigits (count n : Nat) : (lastDigits count n).length = count := by
  induction count generalizing n with
  | zero => rfl
  | succ count ih => rw [lastDigits, List.length_append, ih, List.length_singleton]

private theorem ofDigitChars_lastDigits {count n : Nat} (h : n < Nat.pow 10 count) :
    Nat.ofDigitChars 10 (lastDigits count n) 0 = n := by
  induction count generalizing n with
  | zero => exact (Nat.lt_one_iff.mp h).symm
  | succ count ih =>
    have hbefore : n / 10 < Nat.pow 10 count := Nat.div_lt_of_lt_mul (Nat.mul_comm _ 10 ▸ h)
    have hlast : (Nat.digitChar (n % 10)).toNat = 48 + n % 10 :=
      Nat.toNat_digitChar_of_lt_ten (Nat.mod_lt n (by decide))
    have hzero : '0'.toNat = 48 := rfl
    rw [lastDigits, Nat.ofDigitChars_append, ih hbefore, Nat.ofDigitChars_cons, hlast, hzero,
      Nat.ofDigitChars_nil]
    omega

private theorem digitRun_lastDigits {count n : Nat} (h : n < Nat.pow 10 count) {rest : List Char}
    (hrest : NoDigit rest) : digitRun 0 0 (lastDigits count n ++ rest) = (n, count, rest) := by
  rw [digitRun_append (fun _ => isDigit_of_mem_lastDigits) hrest, ofDigitChars_lastDigits h,
    length_lastDigits, Nat.zero_add]

private theorem unsigned_toDigits (n : Nat) {rest : List Char} (hrest : NoDigit rest) :
    exponent.unsigned (Nat.toDigits 10 n ++ rest) = some ((n : Int), rest) := by
  obtain ⟨c, digits, hd, _⟩ := toDigits_eq_cons n
  rw [exponent.unsigned, digitRun_toDigits n hrest, hd]
  rfl

private theorem exponent_decimal (power : Int) {rest : List Char} (hrest : NoDigit rest) :
    exponent (decimal power ++ rest) = some (power, rest) := by
  cases power with
  | ofNat n =>
    obtain ⟨c, digits, hd, hc⟩ := toDigits_eq_cons n
    have hunsigned := unsigned_toDigits n hrest
    rw [decimal]
    rw [hd, List.cons_append] at hunsigned ⊢
    rw [exponent, hunsigned]
    · rfl
    all_goals
      -- a digit is no sign
      intro later heq
      obtain ⟨rfl, _⟩ := List.cons.inj heq
      cases hc
  | negSucc n =>
    rw [decimal, List.cons_append, exponent, unsigned_toDigits _ hrest]
    rfl

section Write

variable (n : Numeral) {rest : List Char} (hrest : Closes rest)

include hrest

private theorem withExponent_write (before : Numeral) (hbefore : before.exponent = none) :
    withExponent before (n.writeExponent ++ rest) =
      some ({ before with exponent := n.exponent }, rest) := by
  cases hexponent : n.exponent with
  | some power =>
    rw [writeExponent, hexponent, List.cons_append, withExponent,
      exponent_decimal power hrest.noDigit]
    rfl
  | none =>
    have hsame : ({ before with exponent := none } : Numeral) = before := by rw [← hbefore]
    rw [writeExponent, hexponent, hsame]
    cases rest with
    | nil => rfl
    | cons c rest => obtain rfl | rfl | rfl := hrest <;> rfl

private theorem noDigit_writeExponent : NoDigit (n.writeExponent ++ rest) := by
  unfold writeExponent
  split
  · exact rfl
  · exact hrest.noDigit

private theorem noDigit_writeFraction :
    NoDigit (n.writeFraction ++ (n.writeExponent ++ rest)) := by
  unfold writeFraction
  split
  · exact noDigit_writeExponent n hrest
  · exact rfl

/-- After the digits in front of it, an exponent or the end of the numeral is no point. -/
private theorem ne_point (cs : List Char) : n.writeExponent ++ rest ≠ '.' :: cs := by
  unfold writeExponent
  split
  · intro h
    cases h
  · rintro rfl
    obtain h | h | h := hrest <;> cases h

private theorem unsignedNumeral_write (h : n.fraction < Nat.pow 10 n.places) :
    unsignedNumeral n.negative
      (Nat.toDigits 10 n.whole ++ (n.writeFraction ++ (n.writeExponent ++ rest))) =
        some (n, rest) := by
  have hexponent : withExponent ⟨n.negative, n.whole, n.fraction, n.places, none⟩
      (n.writeExponent ++ rest) = some (n, rest) := withExponent_write n hrest _ rfl
  rw [unsignedNumeral, wholePart_toDigits n.whole (noDigit_writeFraction n hrest)]
  by_cases hplaces : n.places = 0
  · have hfraction : n.fraction = 0 := by
      rw [hplaces] at h
      exact Nat.lt_one_iff.mp h
    rw [hplaces, hfraction] at hexponent
    rw [writeFraction, if_pos hplaces, List.nil_append]
    split
    · next heq => cases heq
    · next heq => exact absurd (Prod.mk.inj (Option.some.inj heq)).2 (ne_point n hrest _)
    · next heq =>
      obtain ⟨rfl, rfl⟩ := Prod.mk.inj (Option.some.inj heq)
      exact hexponent
  · have hrun := digitRun_lastDigits h (noDigit_writeExponent n hrest)
    rw [writeFraction, if_neg hplaces, List.cons_append]
    simp only [hrun]
    exact hexponent

omit hrest in
private theorem numeral_of_digit {c : Char} (hc : c.isDigit = true) (cs : List Char) :
    numeral (c :: cs) = unsignedNumeral false (c :: cs) := by
  rw [numeral]
  rintro later heq
  obtain ⟨rfl, _⟩ := List.cons.inj heq
  cases hc

theorem numeral_write (h : n.fraction < Nat.pow 10 n.places) :
    numeral (n.write rest) = some (n, rest) := by
  have hread := unsignedNumeral_write n hrest h
  rw [Numeral.write]
  cases hnegative : n.negative with
  | false =>
    obtain ⟨c, digits, hd, hc⟩ := toDigits_eq_cons n.whole
    rw [hnegative, hd] at hread
    rw [hd]
    exact (numeral_of_digit hc _).trans hread
  | true =>
    rw [hnegative] at hread
    exact hread

end Write

/-! ### Strings -/

/-- A part of a string that is read where a character is written, and stands for it. -/
structure Piece.StandsFor (piece : Piece) (c : Char) : Prop where
  read : ∀ before rest, pieces before (escape c ++ rest) = pieces (piece :: before) rest
  assembled : ∀ before rest, assemble before (piece :: rest) = assemble (c :: before) rest

private theorem assemble_control {n : Nat} (h : n < 32) (before : List Char) (rest : List Piece) :
    assemble before (.unit n :: rest) = assemble (Char.ofNat n :: before) rest := by
  have hhigh : isHigh n = false := by
    rw [isHigh, Bool.and_eq_false_iff]
    exact .inl (decide_eq_false (by omega))
  have hlow : isLow n = false := by
    rw [isLow, Bool.and_eq_false_iff]
    exact .inl (decide_eq_false (by omega))
  rcases rest with _ | ⟨_ | low, rest⟩ <;> simp [assemble, hhigh, hlow]

private theorem toNat?_control :
    ∀ n < 32, Hex.toNat? ['0', '0', Nat.digitChar (n / 16), Nat.digitChar (n % 16)] = some n := by
  decide

def lettered : List Char := ['"', '\\', '\n', '\r', '\t', '\x08', '\x0c']

private theorem escape_eq {c : Char} (h : c ∉ lettered) :
    escape c = if c.toNat < 32 then
        ['\\', 'u', '0', '0', Nat.digitChar (c.toNat / 16), Nat.digitChar (c.toNat % 16)]
      else [c] := by
  simp only [lettered, List.mem_cons, List.not_mem_nil, or_false, not_or] at h
  simp [escape, h]

private theorem standsFor_lettered {c letter : Char} (hescape : escape c = ['\\', letter])
    (hletter : letter ≠ 'u') (hvalue : unescape? letter = some c) : (Piece.char c).StandsFor c where
  read before rest := by
    rw [hescape, List.cons_append, List.singleton_append, pieces, hvalue]
    intro _ _ _ _ _ heq
    exact absurd heq hletter
  assembled before rest := by rw [assemble]

private theorem standsFor_control {c : Char} (h : c ∉ lettered) (hcontrol : c.toNat < 32) :
    (Piece.unit c.toNat).StandsFor c where
  read before rest := by
    rw [escape_eq h, if_pos hcontrol]
    simp only [List.cons_append, List.nil_append]
    rw [pieces, toNat?_control c.toNat hcontrol]
  assembled before rest := by rw [assemble_control hcontrol, Char.ofNat_toNat]

private theorem standsFor_plain {c : Char} (h : c ∉ lettered) (hplain : ¬c.toNat < 32) :
    (Piece.char c).StandsFor c where
  read before rest := by
    rw [escape_eq h, if_neg hplain, List.singleton_append, pieces, if_neg hplain]
    all_goals
      -- quotes and backslashes have a letter of their own
      intros
      subst_vars
      exact absurd h (by decide)
  assembled before rest := by rw [assemble]

private theorem exists_standsFor (c : Char) : ∃ piece : Piece, piece.StandsFor c := by
  by_cases h : c ∈ lettered
  · refine ⟨.char c, ?_⟩
    simp only [lettered, List.mem_cons, List.not_mem_nil, or_false] at h
    obtain rfl | rfl | rfl | rfl | rfl | rfl | rfl := h <;>
      exact standsFor_lettered rfl (by decide) rfl
  · by_cases hcontrol : c.toNat < 32
    · exact ⟨_, standsFor_control h hcontrol⟩
    · exact ⟨_, standsFor_plain h hcontrol⟩

/-- The characters of a string are read back in their order, whatever was read before and whatever
follows. -/
private theorem exists_pieces (cs : List Char) : ∃ parts : List Piece,
    (∀ before rest, pieces before (cs.flatMap escape ++ rest) =
      pieces (parts.reverse ++ before) rest) ∧
    ∀ before rest, assemble before (parts ++ rest) = assemble (cs.reverse ++ before) rest := by
  induction cs with
  | nil => exact ⟨[], fun _ _ => rfl, fun _ _ => rfl⟩
  | cons c cs ih =>
    obtain ⟨parts, hparts, hcs⟩ := ih
    obtain ⟨piece, hpiece⟩ := exists_standsFor c
    refine ⟨piece :: parts, fun before rest => ?_, fun before rest => ?_⟩
    · rw [List.flatMap_cons, List.append_assoc, hpiece.read, hparts]
      simp
    · rw [List.cons_append, hpiece.assembled, hcs]
      simp

theorem string_writeString (s : String) (rest : List Char) :
    string (s.toList.flatMap escape ++ '"' :: rest) = some (some s, rest) := by
  obtain ⟨parts, hparts, hcs⟩ := exists_pieces s.toList
  have hassembled : assemble [] parts = some s := by
    have h := hcs [] []
    rw [List.append_nil, List.append_nil] at h
    rw [h, assemble, List.reverse_reverse, String.ofList_toList]
  rw [string, hparts, pieces, List.append_nil, List.reverse_reverse]
  exact congrArg (fun text => some (text, rest)) hassembled

end Source
end ExecutionTrace.Json
