import ExecutionTrace.Json.Source

/-!
A given number of bytes, written as an array of numbers. After the last of them the reader tries for
one more, and refuses the array if it gets one. An attempt that fails does no harm: reading goes on
where the attempt gave up, and the array has to end there. So one item that is no byte may follow
the bytes, even an unfinished one, as long as the attempt consumes it.
-/
namespace ExecutionTrace.Json.Octets

open Source

/-! ### Failed attempts -/

/-- The text after its first bytes; none if it has fewer, or if the last of them is a part of a
character. -/
def dropBytes : Nat → List Char → Option (List Char)
  | 0, cs => some cs
  | _ + 1, [] => none
  | count + 1, c :: rest =>
    if c.utf8Size ≤ count + 1 then dropBytes (count + 1 - c.utf8Size) rest else none

/-- Where the reading of a word gives up or ends, given the letters that it has to have. -/
def afterWord : (letters : List Char) → List Char → Option (List Char)
  | [], rest => some rest
  | _ :: _, [] => none
  | letter :: letters, c :: rest =>
    if c = letter then afterWord letters rest else dropBytes 1 (c :: rest)

/-- Where the reading of a string gives up or ends, after its opening quote. It gives up after a
control character, after a letter that escapes nothing, after four digits that are not hexadecimal
and where half of a surrogate pair stays alone. -/
def afterString : List Char → Option (List Char)
  | [] => none
  | '"' :: rest => some rest
  | '\\' :: 'u' :: a :: b :: c :: d :: rest =>
    match Hex.toNat? [a, b, c, d] with
    | none => dropBytes 4 (a :: b :: c :: d :: rest)
    | some unit =>
      if isLow unit then some rest
      else if isHigh unit then
        match rest with
        | '\\' :: 'u' :: a :: b :: c :: d :: rest =>
          match Hex.toNat? [a, b, c, d] with
          | none => dropBytes 4 (a :: b :: c :: d :: rest)
          | some unit => if isLow unit then afterString rest else some rest
        | '\\' :: 'u' :: rest => dropBytes 4 rest
        | '\\' :: rest => dropBytes 1 rest
        | rest => dropBytes 1 rest
      else afterString rest
  | '\\' :: 'u' :: rest => dropBytes 4 rest
  | '\\' :: c :: rest => if (unescape? c).isSome then afterString rest else dropBytes 1 (c :: rest)
  | c :: rest => if c.toNat < 32 then some rest else afterString rest

/-- The greatest exponent that is read to its end when it makes a number larger. -/
def exponentLimit : Nat := 2147483647

def afterExponent (large : Bool) (value : Nat) : List Char → List Char
  | [] => []
  | c :: rest =>
    if c.isDigit then
      let value := 10 * value + (c.toNat - 48)
      if large && exponentLimit < value then rest else afterExponent large value rest
    else c :: rest

def afterDigits (digits : Nat) : List Char → Option (List Char)
  | e :: rest =>
    if e = 'e' || e = 'E' then
      let (large, rest) := match rest with
        | '+' :: rest => (digits != 0, rest)
        | '-' :: rest => (false, rest)
        | rest => (digits != 0, rest)
      match rest with
      | c :: _ => if c.isDigit then some (afterExponent large 0 rest) else dropBytes 1 rest
      | [] => none
    else some (e :: rest)
  | [] => none

def afterNumber (cs : List Char) : Option (List Char) :=
  match wholePart cs with
  | none => dropBytes 1 cs
  | some (value, '.' :: rest) =>
    match digitRun value 0 rest with
    | (_, 0, _) => some rest
    | (digits, _, rest) => afterDigits digits rest
  | some (value, rest) => afterDigits value rest

/-! ### Bytes -/

/-- A byte: a number below 256, written without sign, point and exponent. -/
def byteOf? (n : Numeral) : Option UInt8 :=
  if n.isWhole && !n.negative && n.whole < 256 then some (UInt8.ofNat n.whole) else none

def byte? (cs : List Char) : Option (UInt8 × List Char) := do
  let (n, rest) ← numeral cs
  return (← byteOf? n, rest)

/-- Where the attempt to read a byte gives up; none if there is a byte. -/
def afterFailure (cs : List Char) : Option (List Char) :=
  if (byte? cs).isSome then none
  else
    match cs with
    | 'n' :: rest => afterWord ['u', 'l', 'l'] rest
    | 't' :: rest => afterWord ['r', 'u', 'e'] rest
    | 'f' :: rest => afterWord ['a', 'l', 's', 'e'] rest
    | '"' :: rest => afterString rest
    | '-' :: rest => afterNumber rest
    | c :: rest => if c.isDigit then afterNumber (c :: rest) else some (c :: rest)
    | [] => none

def finish (cs : List Char) : Option (List Char) := do
  let rest ← match skip cs with
    | ',' :: rest => afterFailure (skip rest)
    | rest => some rest
  match skip rest with
  | ']' :: rest => some rest
  | _ => none

def items : (count : Nat) → List Char → Option (List UInt8 × List Char)
  | 0, cs => some ([], cs)
  | 1, cs => do
    let (b, rest) ← byte? (skip cs)
    return ([b], rest)
  | count + 2, cs => do
    let (b, rest) ← byte? (skip cs)
    match skip rest with
    | ',' :: rest =>
      let (bs, rest) ← items (count + 1) rest
      return (b :: bs, rest)
    | _ => none

def array (count : Nat) (cs : List Char) : Option (List UInt8 × List Char) := do
  let (bs, rest) ← items count cs
  return (bs, ← finish rest)

end ExecutionTrace.Json.Octets
