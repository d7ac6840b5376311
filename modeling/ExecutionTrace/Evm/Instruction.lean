import ExecutionTrace.Event
import ExecutionTrace.Hardfork

/-!
The instructions that the machine executes, and the bytes that stand for them. All other bytes are
undefined.
-/
namespace ExecutionTrace.Evm

inductive CallForm where
  | call | callCode | delegateCall | staticCall
deriving DecidableEq, Repr

inductive Instruction where
  | stop | add | shiftLeft
  | balance | codeSizeOf | codeCopyOf | codeHashOf
  | codeCopy | returnDataCopy
  | pop | memoryLoad | memoryStore | slotLoad | slotStore | jump | gas | jumpTarget
  | transientLoad | transientStore
  /-- Pushes the number that the next bytes write. -/
  | push (width : Nat)
  | log (topics : Nat)
  | create (salted : Bool)
  | call (form : CallForm)
  | giveBack | revert | invalid | selfDestruct
  /-- One for code in containers only, which does not run here. -/
  | contained
  /-- Hands over a container, which only the initialisation of another one can do. -/
  | returnContract
  | undefined
deriving DecidableEq, Repr

namespace Instruction

def ofByte (b : UInt8) : Instruction :=
  match b with
  | 0x00 => stop
  | 0x01 => add
  | 0x1b => shiftLeft
  | 0x31 => balance
  | 0x39 => codeCopy
  | 0x3b => codeSizeOf
  | 0x3c => codeCopyOf
  | 0x3e => returnDataCopy
  | 0x3f => codeHashOf
  | 0x50 => pop
  | 0x51 => memoryLoad
  | 0x52 => memoryStore
  | 0x54 => slotLoad
  | 0x55 => slotStore
  | 0x56 => jump
  | 0x5a => gas
  | 0x5b => jumpTarget
  | 0x5c => transientLoad
  | 0x5d => transientStore
  | 0xf0 => create false
  | 0xf1 => call .call
  | 0xf2 => call .callCode
  | 0xf3 => giveBack
  | 0xf4 => call .delegateCall
  | 0xf5 => create true
  | 0xd0 | 0xd1 | 0xd2 | 0xd3 => contained
  | 0xe0 | 0xe1 | 0xe2 | 0xe3 | 0xe4 | 0xe5 | 0xe6 | 0xe7 | 0xe8 | 0xec | 0xed => contained
  | 0xee => returnContract
  | 0xf7 | 0xf8 | 0xf9 | 0xfb => contained
  | 0xfa => call .staticCall
  | 0xfd => revert
  | 0xfe => invalid
  | 0xff => selfDestruct
  | b =>
    if 0x5f ≤ b ∧ b ≤ 0x7f then push (b.toNat - 0x5f)
    else if 0xa0 ≤ b ∧ b ≤ 0xa4 then log (b.toNat - 0xa0)
    else undefined

/-- The first rule set with the instruction, where that is later than Berlin. -/
def activeSince : Instruction → Hardfork
  | push 0 => .shanghai
  | transientLoad | transientStore => .cancun
  | _ => .frontier

end Instruction
end ExecutionTrace.Evm
