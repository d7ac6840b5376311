import ExecutionTrace.Keccak
import ExecutionTrace.Hex

/-!
Addresses in messages: the case of a letter is taken from a hash of the text in lower case, so
that a misspelt address is noticed.
-/
namespace ExecutionTrace.Address

/-- A digit in upper case when the hash digit at its place is eight or more. -/
private def cased (c : Char) (hashDigit : Char) : Char :=
  match Hex.digit? hashDigit with
  | some n => if 8 ≤ n then c.toUpper else c
  | none => c

def checksummed (a : Address) : String :=
  let text := Hex.digits a.toBytes
  let hash := Keccak.hash (text.map fun c => UInt8.ofNat c.toNat)
  String.ofList ('0' :: 'x' :: List.zipWith cased text (Hex.digits hash.toBytes))

end ExecutionTrace.Address
