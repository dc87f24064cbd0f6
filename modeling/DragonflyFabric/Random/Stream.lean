/-!
The stream of random words of a router: ChaCha with twelve rounds over a key made from a seed.

A stream is its key and a position in it. Blocks hold sixteen words; the number of a block is the counter
the block is made from, so that any word can be had without those before it.
-/

namespace DragonflyFabric.Random

structure Stream where
  /-- Eight words. -/
  key : Array UInt32
  /-- The number of words already taken. -/
  position : Nat
  deriving DecidableEq

def rotateLeft (x : UInt32) (n : UInt32) : UInt32 := (x <<< n) ||| (x >>> (32 - n))

def rotateRight (x : UInt32) (n : UInt32) : UInt32 := (x >>> n) ||| (x <<< ((32 - n) % 32))

/-- The next state of the generator that spreads a seed over a key. -/
def seedStep (state : UInt64) : UInt64 := state * 6364136223846793005 + 11634580027462260723

/-- The word such a state gives: its upper bits folded together and rotated by its topmost five. -/
def seedWord (state : UInt64) : UInt32 :=
  rotateRight (((state >>> 18) ^^^ state) >>> 27).toUInt32 (state >>> 59).toUInt32

/-- The words of successive states. -/
def seedWords : Nat → UInt64 → List UInt32
  | 0, _ => []
  | n + 1, state =>
    let state := seedStep state
    seedWord state :: seedWords n state

/-- The sixteen words of a block while it is mixed. -/
abbrev Block := Vector UInt32 16

def quarterRound (a b c d : Fin 16) (x : Block) : Block :=
  let x := x.set a (x[a] + x[b])
  let x := x.set d (rotateLeft (x[d] ^^^ x[a]) 16)
  let x := x.set c (x[c] + x[d])
  let x := x.set b (rotateLeft (x[b] ^^^ x[c]) 12)
  let x := x.set a (x[a] + x[b])
  let x := x.set d (rotateLeft (x[d] ^^^ x[a]) 8)
  let x := x.set c (x[c] + x[d])
  x.set b (rotateLeft (x[b] ^^^ x[c]) 7)

/-- One round along the columns and one along the diagonals. -/
def doubleRound (x : Block) : Block :=
  let x := quarterRound 0 4 8 12 x
  let x := quarterRound 1 5 9 13 x
  let x := quarterRound 2 6 10 14 x
  let x := quarterRound 3 7 11 15 x
  let x := quarterRound 0 5 10 15 x
  let x := quarterRound 1 6 11 12 x
  let x := quarterRound 2 7 8 13 x
  quarterRound 3 4 9 14 x

def rounds : Nat → Block → Block
  | 0, x => x
  | n + 1, x => rounds n (doubleRound x)

/-- The block before mixing: four constants, the key, the counter in two words, two zeros. -/
def initialBlock (key : Array UInt32) (counter : UInt64) : Block :=
  let k (i : Nat) : UInt32 := key.getD i 0
  #v[0x61707865, 0x3320646e, 0x79622d32, 0x6b206574, k 0, k 1, k 2, k 3, k 4, k 5, k 6, k 7,
    counter.toUInt32, (counter >>> 32).toUInt32, 0, 0]

/-- The block of a counter: mixed, and added to what it was before. -/
def block (key : Array UInt32) (counter : UInt64) : Block :=
  let start := initialBlock key counter
  (rounds 6 start).zipWith (· + ·) start

namespace Stream

/-- The stream of a seed. -/
def ofSeed (seed : UInt64) : Stream := ⟨(seedWords 8 seed).toArray, 0⟩

/-- The word at a position. -/
def word (s : Stream) (position : Nat) : UInt32 :=
  (block s.key (UInt64.ofNat (position / 16))).toArray.getD (position % 16) 0

/-- The next sixty-four bits: two words, the lower half first. -/
def next (s : Stream) : UInt64 × Stream :=
  ((s.word s.position).toUInt64 ||| ((s.word (s.position + 1)).toUInt64 <<< 32),
    { s with position := s.position + 2 })

end Stream

end DragonflyFabric.Random
