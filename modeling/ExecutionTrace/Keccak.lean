import ExecutionTrace.Word

/-!
The Keccak-256 hash: a permutation of twenty-five 64-bit lanes, built from four layers that are
each a function of the lane index, and a sponge that absorbs 136 bytes at a time.
-/
namespace ExecutionTrace.Keccak

/-- Twenty-five lanes; the lane of column `x` and row `y` has index `x + 5 * y`. -/
abbrev State := Vector UInt64 25

def laneAt (s : State) (x y : Nat) : UInt64 :=
  s.get ⟨x % 5 + 5 * (y % 5), by omega⟩

def tabulate (f : Nat → Nat → UInt64) : State :=
  Vector.ofFn fun i => f (i.val % 5) (i.val / 5)

def rotate (v : UInt64) (n : UInt64) : UInt64 :=
  (v <<< n) ||| (v >>> (64 - n))

def offsets : Vector UInt64 25 :=
  #v[0, 1, 62, 28, 27, 36, 44, 6, 55, 20, 3, 10, 43, 25, 39, 41, 45, 15, 21, 8, 18, 2, 61, 56, 14]

def roundConstants : List UInt64 :=
  [0x0000000000000001, 0x0000000000008082, 0x800000000000808a, 0x8000000080008000,
   0x000000000000808b, 0x0000000080000001, 0x8000000080008081, 0x8000000000008009,
   0x000000000000008a, 0x0000000000000088, 0x0000000080008009, 0x000000008000000a,
   0x000000008000808b, 0x800000000000008b, 0x8000000000008089, 0x8000000000008003,
   0x8000000000008002, 0x8000000000000080, 0x000000000000800a, 0x800000008000000a,
   0x8000000080008081, 0x8000000000008080, 0x0000000080000001, 0x8000000080008008]

def parity (s : State) (x : Nat) : UInt64 :=
  laneAt s x 0 ^^^ laneAt s x 1 ^^^ laneAt s x 2 ^^^ laneAt s x 3 ^^^ laneAt s x 4

def mixColumns (s : State) : State :=
  let parities : Vector UInt64 5 := Vector.ofFn fun x => parity s x.val
  let of (x : Nat) : UInt64 := parities.get ⟨x % 5, by omega⟩
  let shares : Vector UInt64 5 := Vector.ofFn fun x => of (x.val + 4) ^^^ rotate (of (x.val + 1)) 1
  tabulate fun x y => laneAt s x y ^^^ shares.get ⟨x % 5, by omega⟩

def moveLanes (s : State) : State :=
  tabulate fun x y => rotate (laneAt s (x + 3 * y) x) (laneAt offsets (x + 3 * y) x)

/-- The only layer that is not linear: each lane changes with the next two of its row. -/
def mixRows (s : State) : State :=
  tabulate fun x y => laneAt s x y ^^^ ((~~~ laneAt s (x + 1) y) &&& laneAt s (x + 2) y)

def round (s : State) (constant : UInt64) : State :=
  let mixed := mixRows (moveLanes (mixColumns s))
  mixed.set 0 (mixed[0] ^^^ constant)

def permute (s : State) : State := roundConstants.foldl round s

def rate : Nat := 136

/-- What follows a message of `n` bytes so that the total is a multiple of the rate. -/
def padding (n : Nat) : Bytes :=
  let missing := rate - n % rate
  if missing = 1 then [0x81]
  else 0x01 :: List.replicate (missing - 2) 0x00 ++ [0x80]

/-- The lane that eight bytes of a block write, least significant byte first. -/
def laneOf (block : Bytes) (i : Nat) : UInt64 :=
  ((block.drop (8 * i)).take 8).foldr (fun b n => (n <<< 8) ||| b.toUInt64) 0

def absorb (s : State) (block : Bytes) : State :=
  permute (Vector.ofFn fun i => s[i] ^^^ laneOf block i.val)

def absorbAll (s : State) (message : Bytes) : State :=
  if message.length ≤ rate then absorb s message
  else absorbAll (absorb s (message.take rate)) (message.drop rate)
termination_by message.length
decreasing_by simp [rate] at *; omega

def bytesOf (lane : UInt64) : Bytes := (Bytes.ofNat 8 lane.toNat).reverse

def hash (message : Bytes) : Word :=
  let s := absorbAll (Vector.replicate 25 0) (message ++ padding message.length)
  Word.ofBytes (bytesOf s[0] ++ bytesOf s[1] ++ bytesOf s[2] ++ bytesOf s[3])

/-- The hash of the empty message, which marks an account without code. -/
def ofEmpty : Word := 0xc5d2460186f7233c927e7db2dcc703c0e500b653ca82273b7bfad8045d85a470#256

end ExecutionTrace.Keccak
