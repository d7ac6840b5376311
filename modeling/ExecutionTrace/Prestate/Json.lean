import ExecutionTrace.Frame.Json
import ExecutionTrace.Prestate

/-!
Prestates as JSON values, with accounts and slots in ascending order. A nonce of zero, empty code
and empty storage are left out.
-/
namespace ExecutionTrace

def Account.storageToJson (storage : List (Word × Word)) : Json :=
  .obj (storage.map fun (key, value) => (Hex.word key, .word value))

def Account.toJson (a : Account) : Json :=
  .obj (
    [("balance", .quantity a.balance.toNat)] ++
    (if a.nonce = 0 then [] else [("nonce", .int a.nonce.toNat)]) ++
    Json.nonempty "code" .bytes a.code ++
    Json.nonempty "storage" Account.storageToJson a.storage.toList)

def Accounts.toJson (accounts : Accounts) : Json :=
  .obj (accounts.toList.map fun (a, account) => (Hex.address a, account.toJson))

end ExecutionTrace
