import ExecutionTrace.Proofs.Hex
import ExecutionTrace.Proofs.Json.Values
import ExecutionTrace.Tracer

/-!
Options that were read from a text, in whatever spelling, are read again from their own text, unless
their settings hold a double that is not. Whole numbers of 64 bits are no doubles.
-/
namespace ExecutionTrace.Options

open Json Json.Source

/-! ### Settings -/

/-- Every double in the settings is read again, unchanged, from its own text. -/
def Lasting (o : Options) : Prop := (o.config.getD .null).Lasting

instance (o : Options) : Decidable o.Lasting := inferInstanceAs (Decidable (Json.Lasting _))

def shown (o : Options) : Field → Json
  | .tracer => .str o.tracer
  | .config => o.config.getD .null
  | .txHash => (o.txHash.map fun hash => Json.str (Hex.word hash)).getD .null
  | .onlyTopCall => .bool o.onlyTopCall
  | .withLog => .bool o.withLog

section Entries

variable {before after : Options} {seen seen' : List Field} {key : String} {cs rest : List Char}

end Entries

/-- The double that 18446744073709637632 is read as: its first nineteen digits, times ten. -/
private def large : Double := ⟨(1844674407370963763 : UInt64).toFloat * 10, by decide +kernel⟩

end ExecutionTrace.Options
