import ExecutionTrace.Json.Octets

/-!
The options of a trace, read from JSON text. The text is an object with known fields, or an array
of their values in a fixed order.
-/
namespace ExecutionTrace

structure Options where
  tracer : String := ""
  /-- Settings that only the trace itself understands. -/
  config : Option Json := none
  /-- The hash of the one transaction to trace. -/
  txHash : Option Word := none
  onlyTopCall : Bool := false
  withLog : Bool := false
deriving Inhabited

namespace Options

open Json (Source)

/-- The number of levels of arrays and objects that settings may have; the options themselves are
one level more. -/
def configRoom : Nat := 126

def textOf? : Source → Option String
  | .str s => s
  | _ => none

def boolOf? : Source → Option Bool
  | .bool b => some b
  | _ => none

def configOf? : Source → Option (Option Json)
  | .null => some none
  | source => (source.toJson? configRoom).map some

/-- A hash, as a text of sixty-four digits or an array of thirty-two bytes, and what follows it.
Null stands for none. -/
def readHash (cs : List Char) : Option (Option Word × List Char) :=
  match Source.skip cs with
  | '[' :: rest => do
    let (bytes, rest) ← Json.Octets.array 32 rest
    return (some (Word.ofBytes bytes), rest)
  | cs => do
    match ← Source.read cs with
    | (.null, rest) => return (none, rest)
    | (.str (some text), rest) => return (some (← Hex.toWord? text), rest)
    | _ => none

inductive Field where
  | tracer | config | txHash | onlyTopCall | withLog
deriving DecidableEq

namespace Field

def name : Field → String
  | tracer => "tracer"
  | config => "tracerConfig"
  | txHash => "txHash"
  | onlyTopCall => "onlyTopCall"
  | withLog => "withLog"

def all : List Field := [tracer, config, txHash, onlyTopCall, withLog]

def ofName? (text : String) : Option Field := all.find? (·.name = text)

end Field

def readField (o : Options) (field : Field) (cs : List Char) : Option (Options × List Char) :=
  match field with
  | .txHash => (readHash cs).map fun (txHash, rest) => ({ o with txHash }, rest)
  | .tracer => do
    let (source, rest) ← Source.read cs
    return ({ o with tracer := ← textOf? source }, rest)
  | .config => do
    let (source, rest) ← Source.read cs
    return ({ o with config := ← configOf? source }, rest)
  | .onlyTopCall => do
    let (source, rest) ← Source.read cs
    return ({ o with onlyTopCall := ← boolOf? source }, rest)
  | .withLog => do
    let (source, rest) ← Source.read cs
    return ({ o with withLog := ← boolOf? source }, rest)

/-- Reads the value under a key. A field may be absent but not be there twice, and a key that names
no field says nothing. -/
def readEntry (o : Options) (seen : List Field) (key : String) (cs : List Char) :
    Option (Options × List Field × List Char) :=
  match Field.ofName? key with
  | none => (Source.read cs).map fun (_, rest) => (o, seen, rest)
  | some field =>
    if field ∈ seen then none
    else (o.readField field cs).map fun (o, rest) => (o, field :: seen, rest)

def readEntries : (fuel : Nat) → Options → (seen : List Field) → List Char →
    Option (Options × List Char)
  | 0, _, _, _ => none
  | fuel + 1, o, seen, cs =>
    match Source.skip cs with
    | '"' :: rest => do
      let (key, rest) ← Source.string rest
      match Source.skip rest with
      | ':' :: rest =>
        let (o, seen, rest) ← o.readEntry seen (← key) rest
        match Source.skip rest with
        | ',' :: rest => readEntries fuel o seen rest
        | '}' :: rest => some (o, rest)
        | _ => none
      | _ => none
    | _ => none

/-- The options that the items of an array state, up to its closing bracket; the array may be too
short for some of the fields. -/
def readItems : Options → List Field → List Char → Option (Options × List Char)
  | _, [], _ => none
  | o, field :: fields, cs => do
    let (o, rest) ← o.readField field cs
    match Source.skip rest with
    | ',' :: rest => readItems o fields rest
    | ']' :: rest => some (o, rest)
    | _ => none

def readStart (cs : List Char) : Option (Options × List Char) :=
  match Source.skip cs with
  | '{' :: rest =>
    match Source.skip rest with
    | '}' :: rest => some ({}, rest)
    | rest => readEntries rest.length {} [] rest
  | '[' :: rest =>
    match Source.skip rest with
    | ']' :: rest => some ({}, rest)
    | rest => readItems {} Field.all rest
  | _ => none

/-- The options that a text states, with nothing but blanks around them. -/
def ofText? (text : String) : Option Options := do
  let (o, rest) ← readStart text.toList
  if (Source.skip rest).isEmpty then some o else none

def toJson (o : Options) : Json :=
  .obj [
    ("tracer", .str o.tracer),
    ("tracerConfig", o.config.getD .null),
    ("txHash", (o.txHash.map fun hash => Json.str (Hex.word hash)).getD .null),
    ("onlyTopCall", .bool o.onlyTopCall),
    ("withLog", .bool o.withLog)]

def selects (o : Options) (hash : Word) : Bool :=
  match o.txHash with
  | some wanted => wanted = hash
  | none => true

end Options
end ExecutionTrace
