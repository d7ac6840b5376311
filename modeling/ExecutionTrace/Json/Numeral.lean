/-!
Numbers as a text writes them: a sign, digits before and after a point, and an exponent.
-/
namespace ExecutionTrace.Json

structure Numeral where
  negative : Bool
  whole : Nat
  /-- The digits after the point, as a number. -/
  fraction : Nat
  /-- How many digits there are after the point; none without a point. -/
  places : Nat
  exponent : Option Int
deriving DecidableEq

namespace Numeral

def isWhole (n : Numeral) : Bool := n.places = 0 && n.exponent.isNone

def ofInt (i : Int) : Numeral := ⟨decide (i < 0), i.natAbs, 0, 0, none⟩

def decimal : Int → List Char
  | .ofNat n => Nat.toDigits 10 n
  | .negSucc n => '-' :: Nat.toDigits 10 (n + 1)

/-- The last digits of a number, with zeros in front if it has fewer. -/
def lastDigits : (count : Nat) → Nat → List Char
  | 0, _ => []
  | count + 1, n => lastDigits count (n / 10) ++ [Nat.digitChar (n % 10)]

def writeFraction (n : Numeral) : List Char :=
  if n.places = 0 then [] else '.' :: lastDigits n.places n.fraction

def writeExponent (n : Numeral) : List Char :=
  match n.exponent with
  | some exponent => 'e' :: decimal exponent
  | none => []

def write (n : Numeral) (rest : List Char) : List Char :=
  (if n.negative then ['-'] else []) ++
    (Nat.toDigits 10 n.whole ++ (n.writeFraction ++ (n.writeExponent ++ rest)))

end Numeral
end ExecutionTrace.Json
