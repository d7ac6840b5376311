import ExecutionTrace.Word

/-!
Hexadecimal text: byte strings with two digits a byte, numbers without leading zeros, and numbers
of a fixed width. Every text starts with 0x; digits above nine are written in lower case.
-/
namespace ExecutionTrace.Hex

/-- The two digits of a byte, high half first. -/
def pair (b : UInt8) : List Char :=
  [Nat.digitChar (b.toNat / 16), Nat.digitChar (b.toNat % 16)]

def digits (bytes : Bytes) : List Char := bytes.flatMap pair

def ofBytes (bytes : Bytes) : String := String.ofList ('0' :: 'x' :: digits bytes)

/-- The text of a number with as few digits as possible; zero has one. -/
def quantity (n : Nat) : String := String.ofList ('0' :: 'x' :: Nat.toDigits 16 n)

def address (a : Address) : String := ofBytes a.toBytes

def word (w : Word) : String := ofBytes w.toBytes

def digit? (c : Char) : Option Nat :=
  if '0' ≤ c ∧ c ≤ '9' then some (c.toNat - '0'.toNat)
  else if 'a' ≤ c ∧ c ≤ 'f' then some (c.toNat - 'a'.toNat + 10)
  else if 'A' ≤ c ∧ c ≤ 'F' then some (c.toNat - 'A'.toNat + 10)
  else none

/-- The bytes that pairs of digits write; nothing for an odd digit or another character. -/
def bytes? : List Char → Option Bytes
  | [] => some []
  | [_] => none
  | h :: l :: rest => do
    let high ← digit? h
    let low ← digit? l
    return UInt8.ofNat (16 * high + low) :: (← bytes? rest)

def unprefixed : List Char → List Char
  | '0' :: 'x' :: rest => rest
  | '0' :: 'X' :: rest => rest
  | text => text

def toBytes? (text : String) : Option Bytes := bytes? (unprefixed text.toList)

/-- The word of a text with exactly sixty-four digits, with or without the prefix. -/
def toWord? (text : String) : Option Word := do
  let bytes ← toBytes? text
  if bytes.length = 32 then some (Word.ofBytes bytes) else none

def toNat? (text : List Char) : Option Nat :=
  text.foldlM (fun n c => (digit? c).map (16 * n + ·)) 0

theorem digit?_digitChar {n : Nat} (h : n < 16) : digit? (Nat.digitChar n) = some n := by
  match n, h with
  | 0, _ | 1, _ | 2, _ | 3, _ | 4, _ | 5, _ | 6, _ | 7, _ | 8, _ | 9, _ | 10, _ | 11, _ | 12, _
  | 13, _ | 14, _ | 15, _ => rfl
  | n + 16, h => omega

theorem bytes?_digits (bytes : Bytes) : bytes? (digits bytes) = some bytes := by
  induction bytes with
  | nil => rfl
  | cons b rest ih =>
    have hb := b.toNat_lt
    have low : b.toNat % 16 < 16 := Nat.mod_lt _ (by decide)
    have high : b.toNat / 16 < 16 := by omega
    have whole : 16 * (b.toNat / 16) + b.toNat % 16 = b.toNat := by omega
    have step : digits (b :: rest) = Nat.digitChar (b.toNat / 16) ::
        Nat.digitChar (b.toNat % 16) :: digits rest := rfl
    rw [step, bytes?, digit?_digitChar high, digit?_digitChar low, ih]
    change some (UInt8.ofNat (16 * (b.toNat / 16) + b.toNat % 16) :: rest) = some (b :: rest)
    rw [whole, UInt8.ofNat_toNat]

theorem ofBytes_injective {a b : Bytes} (h : ofBytes a = ofBytes b) : a = b := by
  have : digits a = digits b := by
    simpa [ofBytes, String.ofList_inj] using h
  have := congrArg bytes? this
  simpa [bytes?_digits] using this

end ExecutionTrace.Hex
