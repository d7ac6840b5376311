import ExecutionTrace.Keccak

/-!
Addresses of new contracts. A creation either counts the creator's transactions or is fixed by a
salt and the initialisation code.
-/
namespace ExecutionTrace

namespace Rlp

/-- The bytes of a number without leading zeros; none for zero. -/
def minimal (n : Nat) : Bytes :=
  if n = 0 then [] else Bytes.ofNat (n.log2 / 8 + 1) n

/-- The encoding of a byte string of at most 55 bytes. -/
def item (bytes : Bytes) : Bytes :=
  match bytes with
  | [b] => if b < 0x80 then [b] else [0x81, b]
  | _ => UInt8.ofNat (0x80 + bytes.length) :: bytes

/-- The encoding of a list whose encoded items have at most 55 bytes together. -/
def list (items : List Bytes) : Bytes :=
  let payload := items.flatMap item
  UInt8.ofNat (0xc0 + payload.length) :: payload

end Rlp

namespace Address

def created (creator : Address) (nonce : UInt64) : Address :=
  (Keccak.hash (Rlp.list [creator.toBytes, Rlp.minimal nonce.toNat])).toAddress

/-- The address of the contract an account creates with a salt from code with this hash. -/
def createdAt (creator : Address) (salt codeHash : Word) : Address :=
  (Keccak.hash (0xff :: creator.toBytes ++ salt.toBytes ++ codeHash.toBytes)).toAddress

/-- The address of the contract an account creates with a salt from this initialisation code. -/
def createdFrom (creator : Address) (salt : Word) (code : Bytes) : Address :=
  creator.createdAt salt (Keccak.hash code)

end Address
end ExecutionTrace
