import ExecutionTrace.World

/-!
Failed reads that are told late. An instruction that cannot read ends its action at once, but the
failure itself waits: it comes out when the result of an action is handed to the action around it,
or when the transaction is over. A transaction that another failure ends before that leaves it
waiting, to come out in a later transaction.
-/
namespace ExecutionTrace.Evm

/-- A computation that may fail, beside which a failed read may wait. What waits outlives the
failure of the computation. -/
abbrev Deferring (ε α : Type) := EStateM ε (Option DbFault) α

namespace Deferring

/-- Lets a failed read wait, in place of one that waits already. A read that never comes back
cannot wait. -/
def defer (fault : DbFault) : Deferring DbFault Unit :=
  if fault = .crash then throw fault else set (some fault)

/-- Fails with the read that waits, if there is one; nothing waits after that. -/
def raise : Deferring DbFault Unit := fun
  | some fault => .error fault none
  | none => .ok () none

/-- A read that waits comes out once, whatever waited before it. -/
theorem raise_defer {fault : DbFault} (h : fault ≠ .crash) (waiting : Option DbFault) :
    (do defer fault; raise).run waiting = .error fault none := by
  simp only [defer, if_neg h]
  rfl

end Deferring
end ExecutionTrace.Evm
