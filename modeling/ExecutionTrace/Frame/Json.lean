import ExecutionTrace.Frame
import ExecutionTrace.Json

/-!
Frames as JSON values. What a frame does not have is left out: an account, output, error, reason,
inner frames, logs or a value.
-/
namespace ExecutionTrace

def Json.bytes (b : Bytes) : Json := .str (Hex.ofBytes b)

def Json.quantity (n : Nat) : Json := .str (Hex.quantity n)

def Json.address (a : Address) : Json := .str (Hex.address a)

def Json.word (w : Word) : Json := .str (Hex.word w)

def FrameLog.toJson (l : FrameLog) : Json :=
  .obj [
    ("address", .address l.entry.address),
    ("topics", .arr (l.entry.topics.map Json.word)),
    ("data", .bytes l.entry.data),
    ("position", .quantity l.position.toNat)]

namespace Frame

mutual

def toJson : Frame → Json
  | ⟨kind, sender, gas, gasUsed, target, input, output, error, reason, calls, logs, value⟩ =>
    .obj (
      [("type", .str kind.name),
       ("from", .address sender),
       ("gas", .quantity gas.toNat),
       ("gasUsed", .quantity gasUsed.toNat)] ++
      Json.optional "to" .address target ++
      [("input", .bytes input)] ++
      Json.nonempty "output" .bytes output ++
      Json.optional "error" .str error ++
      Json.optional "revertReason" .str reason ++
      Json.nonempty "calls" .arr (toJsonAll calls) ++
      Json.nonempty "logs" .arr (logs.map FrameLog.toJson) ++
      Json.optional "value" (fun v => .quantity v.toNat) value)

def toJsonAll : List Frame → List Json
  | [] => []
  | call :: calls => toJson call :: toJsonAll calls

end

end Frame
end ExecutionTrace
