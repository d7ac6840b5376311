import ExecutionTrace.Hex
import ExecutionTrace.Json
import ExecutionTrace.OrdMap

/-!
What a JSON text writes, before its values are checked. A reader that skips a value need not look
at it closely: half of a surrogate pair, a number out of range and any depth of nesting are
harmless in a value that nobody uses. Reading a value in earnest refuses all three.
-/
namespace ExecutionTrace.Json

/-- What a text writes. A string is absent when it holds half of a surrogate pair. -/
inductive Source where
  | null
  | bool (b : Bool)
  | num (n : Numeral)
  | str (s : Option String)
  | arr (items : List Source)
  | obj (fields : List (Option String × Source))
deriving Inhabited

namespace Source

/-! ### Characters and strings -/

def isBlank (c : Char) : Bool := c = ' ' || c = '\n' || c = '\t' || c = '\r'

def skip : List Char → List Char
  | [] => []
  | c :: rest => if isBlank c then skip rest else c :: rest

/-- A part of a string: a character, or a 16-bit unit written by its number. -/
inductive Piece where
  | char (c : Char)
  | unit (n : Nat)

def unescape? (c : Char) : Option Char :=
  if c = '"' then some '"'
  else if c = '\\' then some '\\'
  else if c = '/' then some '/'
  else if c = 'b' then some '\x08'
  else if c = 'f' then some '\x0c'
  else if c = 'n' then some '\n'
  else if c = 'r' then some '\r'
  else if c = 't' then some '\t'
  else none

/-- The parts of a string up to its closing quote, latest first in `read`, and what follows. -/
def pieces (read : List Piece) : List Char → Option (List Piece × List Char)
  | [] => none
  | '"' :: rest => some (read.reverse, rest)
  | '\\' :: 'u' :: a :: b :: c :: d :: rest =>
    match Hex.toNat? [a, b, c, d] with
    | some n => pieces (.unit n :: read) rest
    | none => none
  | '\\' :: c :: rest =>
    match unescape? c with
    | some c => pieces (.char c :: read) rest
    | none => none
  | c :: rest => if c.toNat < 32 then none else pieces (.char c :: read) rest

def isHigh (n : Nat) : Bool := 0xd800 ≤ n && n < 0xdc00

def isLow (n : Nat) : Bool := 0xdc00 ≤ n && n < 0xe000

/-- The text that parts make, latest character first in `read`; none for half of a pair. -/
def assemble (read : List Char) : List Piece → Option String
  | [] => some (String.ofList read.reverse)
  | .char c :: rest => assemble (c :: read) rest
  | .unit high :: .unit low :: rest =>
    if isHigh high && isLow low then
      assemble (Char.ofNat (0x10000 + (high - 0xd800) * 0x400 + (low - 0xdc00)) :: read) rest
    else if isHigh high || isLow high then none
    else assemble (Char.ofNat high :: read) (.unit low :: rest)
  | .unit n :: rest =>
    if isHigh n || isLow n then none else assemble (Char.ofNat n :: read) rest

def string (cs : List Char) : Option (Option String × List Char) :=
  (pieces [] cs).map fun (parts, rest) => (assemble [] parts, rest)

/-! ### Numbers -/

/-- The digits at the start of a text, as a number after `value`, their count, and the rest. -/
def digitRun (value count : Nat) : List Char → Nat × Nat × List Char
  | [] => (value, count, [])
  | c :: rest =>
    if c.isDigit then digitRun (10 * value + (c.toNat - 48)) (count + 1) rest
    else (value, count, c :: rest)

/-- The whole part of a number: one zero, or digits that do not start with one. -/
def wholePart : List Char → Option (Nat × List Char)
  | '0' :: c :: rest => if c.isDigit then none else some (0, c :: rest)
  | ['0'] => some (0, [])
  | cs =>
    match digitRun 0 0 cs with
    | (_, 0, _) => none
    | (value, _, rest) => some (value, rest)

def exponent : List Char → Option (Int × List Char)
  | '+' :: rest => unsigned rest
  | '-' :: rest => (unsigned rest).map fun (e, rest) => (-e, rest)
  | cs => unsigned cs
where
  unsigned (cs : List Char) : Option (Int × List Char) :=
    match digitRun 0 0 cs with
    | (_, 0, _) => none
    | (value, _, rest) => some (value, rest)

def withExponent (n : Numeral) : List Char → Option (Numeral × List Char)
  | 'e' :: rest => (exponent rest).map fun (e, rest) => ({ n with exponent := some e }, rest)
  | 'E' :: rest => (exponent rest).map fun (e, rest) => ({ n with exponent := some e }, rest)
  | cs => some (n, cs)

def unsignedNumeral (negative : Bool) (cs : List Char) : Option (Numeral × List Char) :=
  match wholePart cs with
  | none => none
  | some (whole, '.' :: rest) =>
    match digitRun 0 0 rest with
    | (_, 0, _) => none
    | (fraction, places, rest) => withExponent ⟨negative, whole, fraction, places, none⟩ rest
  | some (whole, rest) => withExponent ⟨negative, whole, 0, 0, none⟩ rest

def numeral : List Char → Option (Numeral × List Char)
  | '-' :: rest => unsignedNumeral true rest
  | cs => unsignedNumeral false cs

/-! ### Values -/

mutual

/-- The value at the start of a text, and what follows it. -/
def value : (fuel : Nat) → List Char → Option (Source × List Char)
  | 0, _ => none
  | fuel + 1, cs =>
    match skip cs with
    | 'n' :: 'u' :: 'l' :: 'l' :: rest => some (.null, rest)
    | 't' :: 'r' :: 'u' :: 'e' :: rest => some (.bool true, rest)
    | 'f' :: 'a' :: 'l' :: 's' :: 'e' :: rest => some (.bool false, rest)
    | '"' :: rest => (string rest).map fun (s, rest) => (.str s, rest)
    | '[' :: rest =>
      match skip rest with
      | ']' :: rest => some (.arr [], rest)
      | rest => items fuel [] rest
    | '{' :: rest =>
      match skip rest with
      | '}' :: rest => some (.obj [], rest)
      | rest => fields fuel [] rest
    | cs => (numeral cs).map fun (n, rest) => (.num n, rest)

def items : (fuel : Nat) → List Source → List Char → Option (Source × List Char)
  | 0, _, _ => none
  | fuel + 1, read, cs =>
    match value fuel cs with
    | none => none
    | some (item, rest) =>
      match skip rest with
      | ',' :: rest => items fuel (item :: read) rest
      | ']' :: rest => some (.arr (item :: read).reverse, rest)
      | _ => none

def fields : (fuel : Nat) → List (Option String × Source) → List Char →
    Option (Source × List Char)
  | 0, _, _ => none
  | fuel + 1, read, cs =>
    match skip cs with
    | '"' :: rest =>
      match string rest with
      | none => none
      | some (key, rest) =>
        match skip rest with
        | ':' :: rest =>
          match value fuel rest with
          | none => none
          | some (item, rest) =>
            match skip rest with
            | ',' :: rest => fields fuel ((key, item) :: read) rest
            | '}' :: rest => some (.obj ((key, item) :: read).reverse, rest)
            | _ => none
        | _ => none
    | _ => none

end

/-- The value at the start of a text, and what follows it. Of two steps of the reader at least one
takes a character, so the fuel is enough. -/
def read (cs : List Char) : Option (Source × List Char) := value (2 * cs.length + 2) cs

/-! ### Values in earnest -/

/-- The value of a numeral: a whole number of 64 bits, or else a double if it is not too large. -/
def number? (n : Numeral) : Option Json :=
  if n.isWhole && !n.negative && n.whole < UInt64.size then some (.int n.whole)
  else if n.isWhole && n.negative && 0 < n.whole && 2 * n.whole ≤ UInt64.size then
    some (.int (-n.whole))
  else (Double.ofNumeral? n).map .real

mutual

/-- The value that a text writes, with no more than `room` levels of arrays and objects. The fields
of an object are put in ascending order, and of two with one key the later wins. -/
def toJson? (room : Nat) : Source → Option Json
  | .null => some .null
  | .bool b => some (.bool b)
  | .num n => number? n
  | .str s => s.map .str
  | .arr items =>
    match room with
    | 0 => none
    | room + 1 => (itemsToJson? room items).map .arr
  | .obj fields =>
    match room with
    | 0 => none
    | room + 1 =>
      (fieldsToJson? room fields).map fun fields => .obj (OrdMap.ofList fields).toList

def itemsToJson? (room : Nat) : List Source → Option (List Json)
  | [] => some []
  | item :: items => do
    let value ← toJson? room item
    return value :: (← itemsToJson? room items)

def fieldsToJson? (room : Nat) : List (Option String × Source) → Option (List (String × Json))
  | [] => some []
  | (key, item) :: fields => do
    let name ← key
    let value ← toJson? room item
    return (name, value) :: (← fieldsToJson? room fields)

end

end Source
end ExecutionTrace.Json
