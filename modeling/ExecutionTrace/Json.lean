import ExecutionTrace.Json.Double

/-!
JSON values and their text. A value is written without blanks, and the fields of an object in the
order in which it holds them.
-/
namespace ExecutionTrace

/-- A JSON value. Whole numbers of 64 bits are held as they are, all other numbers as doubles. -/
inductive Json where
  | null
  | bool (b : Bool)
  | int (i : Int)
  | real (x : Json.Double)
  | str (s : String)
  | arr (items : List Json)
  | obj (fields : List (String × Json))
deriving Inhabited

namespace Json

def escape (c : Char) : List Char :=
  if c = '"' then ['\\', '"']
  else if c = '\\' then ['\\', '\\']
  else if c = '\n' then ['\\', 'n']
  else if c = '\r' then ['\\', 'r']
  else if c = '\t' then ['\\', 't']
  else if c = '\x08' then ['\\', 'b']
  else if c = '\x0c' then ['\\', 'f']
  else if c.toNat < 32 then
    ['\\', 'u', '0', '0', Nat.digitChar (c.toNat / 16), Nat.digitChar (c.toNat % 16)]
  else [c]

def writeString (s : String) (rest : List Char) : List Char :=
  '"' :: (s.toList.flatMap escape ++ '"' :: rest)

mutual

def write : Json → List Char → List Char
  | null, rest => 'n' :: 'u' :: 'l' :: 'l' :: rest
  | bool true, rest => 't' :: 'r' :: 'u' :: 'e' :: rest
  | bool false, rest => 'f' :: 'a' :: 'l' :: 's' :: 'e' :: rest
  | int i, rest => (Numeral.ofInt i).write rest
  | real x, rest => x.numeral.write rest
  | str s, rest => writeString s rest
  | arr items, rest => '[' :: writeItems true items (']' :: rest)
  | obj fields, rest => '{' :: writeFields true fields ('}' :: rest)

def writeItems (first : Bool) : List Json → List Char → List Char
  | [], rest => rest
  | item :: items, rest =>
    (if first then [] else [',']) ++ write item (writeItems false items rest)

def writeFields (first : Bool) : List (String × Json) → List Char → List Char
  | [], rest => rest
  | (key, value) :: fields, rest =>
    (if first then [] else [',']) ++
      writeString key (':' :: write value (writeFields false fields rest))

end

def render (j : Json) : String := String.ofList (write j [])

/-- A field that is left out when there is no value for it. -/
def optional {α : Type} (key : String) (write : α → Json) : Option α → List (String × Json)
  | some value => [(key, write value)]
  | none => []

def nonempty {α : Type} (key : String) (write : List α → Json) : List α → List (String × Json)
  | [] => []
  | items => [(key, write items)]

end Json
end ExecutionTrace
