import ExecutionTrace.Evm.Activation

/-!
What each instruction does. Where an instruction may end the action for more than one reason, the
order of its parts decides for which.
-/
namespace ExecutionTrace.Evm

namespace Op

/-- Copies bytes to memory, for a price by their number. The bytes are zero past their end. -/
def copy (target : Word) (source : Bytes) (start : Word) (length : Nat) : Op Unit := do
  if length = 0 then return
  let target ← range target length
  write target (source.window start.toNat length)

def copyPriced (target : Word) (source : Bytes) (start : Word) (length : Nat) : Op Unit := do
  charge (Fee.copy length)
  copy target source start length

def look (found : Address → Access (Word × Bool)) : Op Unit := do
  let a := (← pop).toAddress
  let (w, cold) ← access (found a)
  charge (Fee.account cold)
  push w

def balanceOf (e : Surroundings) (a : Address) : Access (Word × Bool) := do
  let cold ← Access.load e a
  return (((← get).holding a).record.balance, cold)

def codeSize (e : Surroundings) (a : Address) : Access (Word × Bool) := do
  let (code, cold) ← Access.loadCode e a
  return (BitVec.ofNat 256 code.length, cold)

/-- The hash of the code of an account; zero for an empty account. -/
def codeHash (e : Surroundings) (a : Address) : Access (Word × Bool) := do
  let (_, cold) ← Access.loadCode e a
  let h := (← get).holding a
  return (if h.isEmpty then 0 else h.record.codeHash, cold)

/-- Writes a slot. With no more gas than comes with a value nothing is written. -/
def store (e : Surroundings) : Op Unit := do
  needChanges
  let key ← pop
  let value ← pop
  let contract ← view (·.contract)
  let (slot, cold) ← access (Access.writeSlot e contract key value)
  if (← view (·.gas)) ≤ Fee.stipend then halt .reentrancySentry
  let change : Fee.SlotWrite := ⟨slot.initial, slot.present, value⟩
  charge (Fee.store change cold)
  update fun a => { a with refund := a.refund + Fee.storeRefund e.fork change }

def jumpTo : Op Unit := do
  charge 8
  let target ← sizeOr .invalidJump (← pop)
  unless ← view (·.code.isTarget target) do halt .invalidJump
  update fun a => { a with pc := target }

def popMany : (count : Nat) → Op (List Word)
  | 0 => return []
  | count + 1 => do
    let w ← pop
    return w :: (← popMany count)

def emit (topics : Nat) : Op Unit := do
  needChanges
  need 2
  let start ← pop
  let length ← size (← pop)
  charge (Fee.log topics length)
  let data ← bytes start length
  need topics
  let entry : LogEntry :=
    { address := ← view (·.contract), topics := ← popMany topics, data }
  modify fun r => { r with state := { r.state with logs := entry :: r.state.logs } }

def initCodeLimit : Nat := 49152

def creation (e : Surroundings) (salted : Bool) : Op Unit := do
  needChanges
  need 3
  let value ← pop
  let start ← pop
  let length ← size (← pop)
  if length ≠ 0 ∧ e.fork.since .shanghai then
    if initCodeLimit < length then halt .initCodeSizeLimit
    charge (Fee.initCode length)
  let code ← bytes start length
  let salt ← if salted then some <$> pop else pure none
  charge (Fee.create + if salted then Fee.saltedAddress length else 0)
  let gas := Fee.handedOn (← view (·.gas))
  charge gas
  throw (.creates { caller := ← view (·.contract), salt, value, gas, code })

/-- Asks for a contract to be called. The gas asked for is a wish; what comes with a value is added
to it. -/
def calling (e : Surroundings) (form : CallForm) : Op Unit := do
  let hasValue := form = .call || form = .callCode
  need (if hasValue then 3 else 2)
  let wish ← pop
  let callee := (← pop).toAddress
  let value ← if hasValue then pop else pure 0
  let act := (← get).act
  if form = .call && act.static && value ≠ 0 then halt .callNotAllowedInStatic
  need 4
  let inputStart ← pop
  let inputLength ← pop
  let outputStart ← pop
  let outputLength ← pop
  let input ← bytes inputStart (← size inputLength)
  let length ← size outputLength
  let start ← range outputStart length
  let cold ← access (Access.load e callee)
  if e.fork.since .prague then discard (access (Access.loadCode e callee))
  let isEmpty := ((← get).state.holding callee).isEmpty
  charge (Fee.call cold (value ≠ 0) (form = .call && isEmpty))
  let gas := min (Fee.handedOn (← view (·.gas))) wish.toNat
  charge gas
  let request : CallRequest :=
    { form, input, start, length, value
      caller := act.contract
      target := callee
      codeAddress := callee
      moves := true
      gas := gas + if value = 0 then 0 else Fee.stipend
      static := act.static }
  match form with
  | .call => throw (.calls request)
  | .callCode => throw (.calls { request with target := act.contract })
  | .delegateCall =>
    throw (.calls { request with
      caller := act.caller, target := act.contract, value := act.value, moves := false })
  | .staticCall => throw (.calls { request with static := true })

def finish (exit : ExitCode) : Op Unit := do
  need 2
  let start ← pop
  let length ← size (← pop)
  throw (.ended exit (← bytes start length))

def destruction (e : Surroundings) : Op Unit := do
  needChanges
  let beneficiary := (← pop).toAddress
  let contract ← view (·.contract)
  let d ← access (Access.destroy e contract beneficiary)
  unless d.again do
    update fun a => { a with refund := a.refund + Fee.selfDestructRefund e.fork }
  charge (Fee.selfDestruct d.cold d.makesAccount)
  halt .selfDestruct

def execute (e : Surroundings) : Instruction → Op Unit
  | .stop => halt .stop
  | .add => do
    charge 3
    need 2
    push ((← pop) + (← pop))
  | .shiftLeft => do
    charge 3
    need 2
    let count ← pop
    let w ← pop
    push (if 256 ≤ count.toNat then 0 else w <<< count.toNat)
  | .balance => look (balanceOf e)
  | .codeSizeOf => look (codeSize e)
  | .codeHashOf => look (codeHash e)
  | .codeCopyOf => do
    need 4
    let a := (← pop).toAddress
    let target ← pop
    let start ← pop
    let length ← pop
    let (code, cold) ← access (Access.loadCode e a)
    let length ← size length
    charge (Fee.account cold + 3 * Fee.words length)
    copy target code start length
  | .codeCopy => do
    need 3
    let target ← pop
    let start ← pop
    let length ← size (← pop)
    copyPriced target (← view (·.code.bytes.toList)) start length
  | .returnDataCopy => do
    need 3
    let target ← pop
    let start ← pop
    let length ← size (← pop)
    let returned ← view (·.returned)
    if returned.length < start.toNat + length then halt .outOfOffset
    copyPriced target returned start length
  | .pop => do
    charge 2
    discard pop
  | .memoryLoad => do
    charge 3
    let start ← size (← pop)
    expand start 32
    push (Word.ofBytes (← view fun a => Memory.read a.memory start 32))
  | .memoryStore => do
    charge 3
    need 2
    let start ← size (← pop)
    let w ← pop
    expand start 32
    write start w.toBytes
  | .slotLoad => do
    let key ← pop
    let contract ← view (·.contract)
    let (w, cold) ← access (Access.readSlot e contract key)
    charge (Fee.slot cold)
    push w
  | .slotStore => store e
  | .jump => jumpTo
  | .gas => do
    charge 2
    push (BitVec.ofNat 256 (← view (·.gas)))
  | .jumpTarget => charge 1
  | .transientLoad => do
    charge 100
    let key ← pop
    push (← access (Access.readTransient (← view (·.contract)) key))
  | .transientStore => do
    needChanges
    charge 100
    need 2
    let key ← pop
    let value ← pop
    access (Access.writeTransient (← view (·.contract)) key value)
  | .push width => do
    charge (if width = 0 then 2 else 3)
    let act := (← get).act
    push (BitVec.ofNat 256 (act.code.numberAt act.pc width 0))
    update fun a => { a with pc := a.pc + width }
  | .log topics => emit topics
  | .create salted => creation e salted
  | .call form => calling e form
  | .giveBack => finish .returned
  | .revert => finish .revert
  | .invalid => halt .designatedInvalid
  | .selfDestruct => destruction e
  | .contained => halt .containerOpcodeInLegacy
  | .returnContract => halt .returnContractOutsideInit
  | .undefined => halt .opcodeNotFound

def step (e : Surroundings) (i : Instruction) : Op Unit := do
  update fun a => { a with pc := a.pc + 1 }
  if e.fork.since i.activeSince then execute e i else halt .notActivated

end Op
end ExecutionTrace.Evm
