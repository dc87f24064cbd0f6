import DragonflyFabric.Random.Stream

/-!
Unbiased draws below a bound.

Sixty-four random bits, multiplied by the bound, give the draw in the upper half of the product. Products
whose lower half is beyond the zone are rejected, which leaves every draw the same number of chances.
-/

namespace DragonflyFabric.Random

/-- The greatest lower half that is accepted: the bound, shifted to the top of sixty-four bits, less one. -/
def zone (bound : Nat) : Nat := (bound <<< (63 - Nat.log2 bound)) - 1

/-- Draws until a product is accepted; after `tries` rejections the next one is taken as it is. Each try
is accepted with at least even chances. -/
def drawWithin (bound : Nat) : Nat → Stream → Nat × Stream
  | 0, s =>
    let (bits, s) := s.next
    ((bits.toNat * bound) >>> 64, s)
  | tries + 1, s =>
    let (bits, s') := s.next
    let product := bits.toNat * bound
    if product % 0x10000000000000000 ≤ zone bound then (product >>> 64, s') else drawWithin bound tries s'

/-- A number below a positive bound. Even a bound of one takes its bits from the stream. -/
def draw (bound : Nat) (s : Stream) : Nat × Stream := drawWithin bound 1000 s

end DragonflyFabric.Random
