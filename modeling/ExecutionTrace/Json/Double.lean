import ExecutionTrace.Json.Numeral

/-!
Numbers that are held as doubles. A numeral is read in two parts, its first digits and a power of
ten, and each is rounded to a double before they are multiplied or divided. So a double need not be
the one nearest to the numeral that it was read from, and need not be read again from its own text,
which is the shortest one that it is nearest to.
-/
namespace ExecutionTrace.Json

/-- A double that is neither infinite nor undefined. -/
abbrev Double := { x : Float // x.isFinite = true }

namespace Double

/-! ### Reading -/

/-- The first digits of a number that fit in 64 bits, and the power of ten that stands for the
others. -/
def leading (digits : Nat) (power : Int) : Nat × Int :=
  if digits < UInt64.size then (digits, power) else leading (digits / 10) (power + 1)
termination_by digits
decreasing_by
  have : UInt64.size = 18446744073709551616 := rfl
  omega

/-- The double nearest to digits in front of a power of ten, infinite if it is too large. -/
def nearest (digits : Nat) (power : Int) : Float :=
  Float.ofScientific digits (power < 0) power.natAbs

/-- The greatest exponent of ten for which there is a double. -/
def powerLimit : Nat := 308

/-- A double in front of a power of ten. A small power is taken off in steps. -/
def scale (x : Float) (power : Int) : Float :=
  if x == 0 then x
  else if power < -powerLimit then scale (x / nearest 1 powerLimit) (power + powerLimit)
  else if power < 0 then x / nearest 1 power.natAbs
  else x * nearest 1 power
termination_by power.natAbs
decreasing_by
  simp only [powerLimit] at *
  omega

/-- The double that a numeral is read as; none if it is too large. Digits after the point still
count where those before it did not all fit. -/
def ofNumeral? (n : Numeral) : Option Double :=
  let (digits, power) := leading n.whole 0
  let (digits, power) := leading (digits * Nat.pow 10 n.places + n.fraction) (power - n.places)
  let x := scale (UInt64.ofNat digits).toFloat (power + n.exponent.getD 0)
  let x := if n.negative then -x else x
  if h : x.isFinite = true then some ⟨x, h⟩ else none

/-! ### Writing -/

/-- The value of a double without its sign, in units of the least double above zero. -/
def units (x : Double) : Nat :=
  let bits := x.1.toBits.toNat % (1 <<< 63)
  let shift := bits / (1 <<< 52) - 1
  (bits - shift * (1 <<< 52)) <<< shift

/-- The least double above zero is two to the power of minus this, so that no double has more
digits after the point. -/
def finest : Nat := 1074

/-- The two numbers of `count` digits around one of `length` digits, the nearer first, each with the
number of digits that it leaves out. -/
def around (exact length count : Nat) : List (Nat × Nat) :=
  let unit := Nat.pow 10 (length - count)
  let below := exact / unit
  let rest := exact % unit
  let lower := (below, length - count)
  let upper := if below + 1 = Nat.pow 10 count then (1, length) else (below + 1, length - count)
  if 2 * rest < unit || (2 * rest = unit && below % 2 = 0) then [lower, upper] else [upper, lower]

/-- The digits and the power of ten that a double above zero is written with: of those that it is
nearest to, the fewest digits. -/
def shortest (x : Double) : Nat × Int :=
  let exact := x.units * Nat.pow 5 finest
  let length := (Nat.toDigits 10 exact).length
  let candidates := ((List.range' 1 17).flatMap (around exact length)).map
    fun (digits, dropped) => (digits, (dropped : Int) - finest)
  (candidates.find? fun (digits, power) => nearest digits power = x.1.abs).getD (exact, -finest)

/-- The numeral for digits in front of a power of ten: with a point if the first digit is close to
it, and with an exponent otherwise. -/
def placed (negative : Bool) (digits : Nat) (power : Int) : Numeral :=
  let length := (Nat.toDigits 10 digits).length
  let magnitude := length + power
  if 0 ≤ power ∧ magnitude ≤ 16 then ⟨negative, digits * Nat.pow 10 power.natAbs, 0, 1, none⟩
  else if -5 < magnitude ∧ magnitude ≤ 16 then
    let unit := Nat.pow 10 power.natAbs
    ⟨negative, digits / unit, digits % unit, power.natAbs, none⟩
  else
    let unit := Nat.pow 10 (length - 1)
    ⟨negative, digits / unit, digits % unit, length - 1, some (magnitude - 1)⟩

theorem fraction_placed (negative : Bool) (digits : Nat) (power : Int) :
    (placed negative digits power).fraction < Nat.pow 10 (placed negative digits power).places := by
  have hrest (count : Nat) : digits % Nat.pow 10 count < Nat.pow 10 count :=
    Nat.mod_lt _ (Nat.pow_pos (by decide))
  unfold placed
  dsimp only
  split
  · exact (by decide : 0 < Nat.pow 10 1)
  · split
    · exact hrest _
    · exact hrest _

theorem isWhole_placed (negative : Bool) (digits : Nat) (power : Int) :
    (placed negative digits power).isWhole = false := by
  unfold placed Numeral.isWhole
  dsimp only
  split
  · rfl
  · split
    · simp only [Option.isNone_none, Bool.and_true, decide_eq_false_iff_not]
      omega
    · rw [Option.isNone_some, Bool.and_false]

def numeral (x : Double) : Numeral :=
  let negative := x.1.toBits.toNat / (1 <<< 63) = 1
  if x.units = 0 then ⟨negative, 0, 0, 1, none⟩
  else placed negative x.shortest.1 x.shortest.2

theorem fraction_numeral (x : Double) : x.numeral.fraction < Nat.pow 10 x.numeral.places := by
  by_cases h : x.units = 0
  · rw [numeral, if_pos h]
    exact (by decide : 0 < Nat.pow 10 1)
  · rw [numeral, if_neg h]
    exact fraction_placed _ _ _

theorem isWhole_numeral (x : Double) : x.numeral.isWhole = false := by
  by_cases h : x.units = 0
  · rw [numeral, if_pos h]
    rfl
  · rw [numeral, if_neg h]
    exact isWhole_placed _ _ _

/-- It is read again, unchanged, from its own text. -/
def Lasting (x : Double) : Prop := ofNumeral? x.numeral = some x

instance (x : Double) : Decidable x.Lasting := inferInstanceAs (Decidable (_ = _))

end Double
end ExecutionTrace.Json
