/-!
The opcodes whose operands say which accounts, slots and inputs an operation touches.
-/
namespace ExecutionTrace.Opcode

/-- Whether the first operand is the address of an account to look at. -/
def touchesAddress : UInt8 → Bool
  | 0x31 | 0x3b | 0x3c | 0x3f | 0xff => true
  | _ => false

def isCall : UInt8 → Bool
  | 0xf1 | 0xf2 | 0xf4 | 0xfa => true
  | _ => false

def isStorage : UInt8 → Bool
  | 0x54 | 0x55 => true
  | _ => false

def isStore (opcode : UInt8) : Bool := opcode = 0x55

def isSaltedCreation (opcode : UInt8) : Bool := opcode = 0xf5

/-- The positions of the offset and the length of a call's input among its operands. A call that
carries a value has them one place further down. -/
def callInput? : UInt8 → Option (Nat × Nat)
  | 0xf1 | 0xf2 => some (3, 4)
  | 0xf4 | 0xfa => some (2, 3)
  | _ => none

def createsOrReverts : UInt8 → Bool
  | 0xf0 | 0xf5 | 0xfd => true
  | _ => false

def readsMemory (opcode : UInt8) : Bool := isCall opcode || createsOrReverts opcode

def isTraced (opcode : UInt8) : Bool :=
  isCall opcode || isStorage opcode || touchesAddress opcode || createsOrReverts opcode

end ExecutionTrace.Opcode
