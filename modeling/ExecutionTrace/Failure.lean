/-!
The ways a machine ends an action, and the failures that a trace reports for them.
-/
namespace ExecutionTrace

inductive Failure where
  | revert | outOfGas | invalidOpcode | invalidJump | stackUnderflow | stackOverflow
  | callDepthExceeded | insufficientBalance | addressCollision | writeProtection
  | returnDataOutOfBounds | codeTooLarge | initCodeTooLarge | invalidCode | nonceOverflow
  | other (text : String)
deriving DecidableEq, Repr

namespace Failure

def message : Failure → String
  | revert => "execution reverted"
  | outOfGas => "out of gas"
  | invalidOpcode => "invalid opcode"
  | invalidJump => "invalid jump destination"
  | stackUnderflow => "stack underflow"
  | stackOverflow => "stack limit reached 1024"
  | callDepthExceeded => "max call depth exceeded"
  | insufficientBalance => "insufficient balance for transfer"
  | addressCollision => "contract address collision"
  | writeProtection => "write protection"
  | returnDataOutOfBounds => "return data out of bounds"
  | codeTooLarge => "max code size exceeded"
  | initCodeTooLarge => "max initcode size exceeded"
  | invalidCode => "invalid code: must not begin with 0xef"
  | nonceOverflow => "nonce uint64 overflow"
  | other text => text

/-- Whether the failure is a deliberate revert, which alone hands data back. -/
def isRevert : Failure → Bool
  | revert => true
  | _ => false

end Failure

/-- How a machine ended an instruction sequence, in the machine's own finer vocabulary. -/
inductive ExitCode where
  | proceed | stop | returned | selfDestruct | returnContract
  | revert | callTooDeep | outOfFunds | initCodeStartsEF00 | invalidContainerInitCode
  | invalidDelegateTarget
  | callOrCreate
  | outOfGas | memoryOutOfGas | memoryLimit | precompileOutOfGas | operandOutOfGas
  | reentrancySentry | opcodeNotFound | callNotAllowedInStatic | stateChangeInStatic
  | designatedInvalid | invalidJump | notActivated | stackUnderflow | stackOverflow | outOfOffset
  | createCollision | overflowPayment | precompileError | nonceOverflow | codeSizeLimit
  | codeStartsEF | initCodeSizeLimit | fatalExternal | returnContractOutsideInit
  | containerOpcodeInLegacy | subroutineOverflow | auxDataOverflow | auxDataTooSmall
  | invalidCallTarget
deriving DecidableEq, Repr

namespace ExitCode

def all : List ExitCode :=
  [proceed, stop, returned, selfDestruct, returnContract, revert, callTooDeep, outOfFunds,
   initCodeStartsEF00, invalidContainerInitCode, invalidDelegateTarget, callOrCreate, outOfGas,
   memoryOutOfGas, memoryLimit, precompileOutOfGas, operandOutOfGas, reentrancySentry,
   opcodeNotFound, callNotAllowedInStatic, stateChangeInStatic, designatedInvalid, invalidJump,
   notActivated, stackUnderflow, stackOverflow, outOfOffset, createCollision, overflowPayment,
   precompileError, nonceOverflow, codeSizeLimit, codeStartsEF, initCodeSizeLimit, fatalExternal,
   returnContractOutsideInit, containerOpcodeInLegacy, subroutineOverflow, auxDataOverflow,
   auxDataTooSmall, invalidCallTarget]

/-- The name of an exit code, which is also the text of a failure without a text of its own. -/
def name : ExitCode → String
  | proceed => "Continue" | stop => "Stop" | returned => "Return" | selfDestruct => "SelfDestruct"
  | returnContract => "ReturnContract" | revert => "Revert" | callTooDeep => "CallTooDeep"
  | outOfFunds => "OutOfFunds" | initCodeStartsEF00 => "CreateInitCodeStartingEF00"
  | invalidContainerInitCode => "InvalidEOFInitCode"
  | invalidDelegateTarget => "InvalidExtDelegateCallTarget" | callOrCreate => "CallOrCreate"
  | outOfGas => "OutOfGas" | memoryOutOfGas => "MemoryOOG" | memoryLimit => "MemoryLimitOOG"
  | precompileOutOfGas => "PrecompileOOG" | operandOutOfGas => "InvalidOperandOOG"
  | reentrancySentry => "ReentrancySentryOOG" | opcodeNotFound => "OpcodeNotFound"
  | callNotAllowedInStatic => "CallNotAllowedInsideStatic"
  | stateChangeInStatic => "StateChangeDuringStaticCall" | designatedInvalid => "InvalidFEOpcode"
  | invalidJump => "InvalidJump" | notActivated => "NotActivated"
  | stackUnderflow => "StackUnderflow" | stackOverflow => "StackOverflow"
  | outOfOffset => "OutOfOffset" | createCollision => "CreateCollision"
  | overflowPayment => "OverflowPayment" | precompileError => "PrecompileError"
  | nonceOverflow => "NonceOverflow" | codeSizeLimit => "CreateContractSizeLimit"
  | codeStartsEF => "CreateContractStartingWithEF" | initCodeSizeLimit => "CreateInitCodeSizeLimit"
  | fatalExternal => "FatalExternalError"
  | returnContractOutsideInit => "ReturnContractInNotInitEOF"
  | containerOpcodeInLegacy => "EOFOpcodeDisabledInLegacy"
  | subroutineOverflow => "SubRoutineStackOverflow" | auxDataOverflow => "EofAuxDataOverflow"
  | auxDataTooSmall => "EofAuxDataTooSmall" | invalidCallTarget => "InvalidEXTCALLTarget"

def ofName? (text : String) : Option ExitCode := all.find? (·.name = text)

def isOk : ExitCode → Bool
  | proceed | stop | returned | selfDestruct | returnContract => true
  | _ => false

/-- The codes of an action that gave its remaining gas back without success. -/
def isRevert : ExitCode → Bool
  | revert | callTooDeep | outOfFunds | initCodeStartsEF00 | invalidContainerInitCode
  | invalidDelegateTarget => true
  | _ => false

def failure : ExitCode → Failure
  | revert => .revert
  | outOfGas | memoryOutOfGas | memoryLimit | precompileOutOfGas | operandOutOfGas => .outOfGas
  | opcodeNotFound | designatedInvalid => .invalidOpcode
  | invalidJump => .invalidJump
  | stackUnderflow => .stackUnderflow
  | stackOverflow => .stackOverflow
  | callTooDeep => .callDepthExceeded
  | outOfFunds => .insufficientBalance
  | createCollision => .addressCollision
  | stateChangeInStatic | callNotAllowedInStatic => .writeProtection
  | outOfOffset => .returnDataOutOfBounds
  | codeSizeLimit => .codeTooLarge
  | initCodeSizeLimit => .initCodeTooLarge
  | codeStartsEF => .invalidCode
  | nonceOverflow => .nonceOverflow
  | code => .other code.name

end ExitCode
end ExecutionTrace
