import ExecutionTrace.Hex

/-!
The reason in the data of a reverted action. Two standard payloads carry a text or a code; all
other data is shown in hexadecimal, never as text.
-/
namespace ExecutionTrace.RevertReason

def textSelector : Bytes := [0x08, 0xc3, 0x79, 0xa0]

def panicSelector : Bytes := [0x4e, 0x48, 0x7b, 0x71]

/-- The number in the 32 bytes at an offset, when they are there and it fits in 32 bits. -/
def lengthAt (body : Bytes) (start : Nat) : Option Nat :=
  if body.length < start + 32 then none
  else
    let n := Bytes.toNat ((body.drop start).take 32)
    if n < UInt32.size then some n else none

/-- The text that a body holds: its first word is the offset of the length, and the length stands
before the bytes of the text, which are UTF-8. -/
def textOf (body : Bytes) : Option String := do
  if body.length < 64 then none
  let offset ← lengthAt body 0
  let length ← lengthAt body offset
  if body.length < offset + 32 + length then none
  String.fromUTF8? ⟨((body.drop (offset + 32)).take length).toArray⟩

def panicText (code : Nat) : String :=
  match code with
  | 0x00 => "Panic: Generic compiler panic"
  | 0x01 => "Panic: Assertion failed"
  | 0x11 => "Panic: Arithmetic overflow"
  | 0x12 => "Panic: Division by zero"
  | 0x21 => "Panic: Invalid enum value"
  | 0x22 => "Panic: Invalid storage byte array access"
  | 0x31 => "Panic: Pop on empty array"
  | 0x32 => "Panic: Array access out of bounds"
  | 0x41 => "Panic: Out of memory"
  | 0x51 => "Panic: Uninitialized function pointer"
  | code => "Panic: Unknown error code (" ++ Hex.quantity code ++ ")"

def panicOf (body : Bytes) : Option String :=
  if body.length < 32 then none else some (panicText (Bytes.toNat (body.take 32)))

def standard? (data : Bytes) : Option String :=
  if data.take 4 = textSelector then textOf (data.drop 4)
  else if data.take 4 = panicSelector then panicOf (data.drop 4)
  else none

def decode (data : Bytes) : Option String :=
  if data = [] then none else some ((standard? data).getD (Hex.ofBytes data))

end ExecutionTrace.RevertReason
