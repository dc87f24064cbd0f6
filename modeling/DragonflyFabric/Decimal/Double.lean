/-!
Doubles taken apart into sign, mantissa and binary exponent, and the double nearest to a fraction.
Both directions work on exact natural numbers; only the last step makes a `Float`.
-/

namespace DragonflyFabric.Decimal

/-- The parts of a double. A finite one is `mantissa * 2 ^ exponent`, and the sign of zero is kept. -/
inductive Double
  | nan
  | infinite (negative : Bool)
  | finite (negative : Bool) (mantissa : Nat) (exponent : Int)
  deriving DecidableEq

namespace Double

/-- The leading bit of a mantissa of fifty-three bits. It is not stored. -/
def leadingBit : Nat := 0x10000000000000

/-- The parts that 64 bits stand for: one of sign, eleven of exponent, fifty-two of fraction. -/
def ofBits (bits : Nat) : Double :=
  let negative := (bits >>> 63) % 2 == 1
  let biased : Nat := (bits >>> 52) % 2048
  let fraction : Nat := bits % leadingBit
  if biased = 2047 then
    if fraction = 0 then .infinite negative else .nan
  else if biased = 0 then
    .finite negative fraction (-1074)
  else
    .finite negative (leadingBit + fraction) ((biased : Int) - 1075)

def ofFloat (x : Float) : Double := ofBits x.toBits.toNat

/-- The integer a double is, if it is one. -/
def toInt? : Double → Option Int
  | finite negative mantissa exponent =>
    let scale : Nat := 1 <<< exponent.natAbs
    if 0 ≤ exponent then
      some (signed negative (mantissa * scale))
    else if mantissa % scale = 0 then
      some (signed negative (mantissa / scale))
    else
      none
  | _ => none
where
  signed (negative : Bool) (size : Nat) : Int := if negative then -(size : Int) else size

end Double

/-- `numerator / denominator` scaled by a power of two: the quotient by `denominator * 2 ^ scale`,
as a whole part, the remainder, and the divisor of both. -/
def scaledDiv (numerator denominator : Nat) (scale : Int) : Nat × Nat × Nat :=
  let (n, d) :=
    if 0 ≤ scale then (numerator, denominator <<< scale.toNat)
    else (numerator <<< (-scale).toNat, denominator)
  (n / d, n % d, d)

/-- The binary exponent of the double nearest to a positive fraction: the one that leaves
fifty-three bits before the point, but never less than that of the smallest doubles. -/
def scaleOf (numerator denominator : Nat) : Int :=
  let guess : Int := (Nat.log2 numerator : Int) - Nat.log2 denominator - 52
  let fitted := if (scaledDiv numerator denominator guess).1 < Double.leadingBit then guess - 1 else guess
  max fitted (-1074)

/-- The bits of the double nearest to a non-negative fraction. A fraction halfway between two
doubles goes to the one with an even mantissa, one beyond the greatest double to infinity. -/
def nearestBits (numerator denominator : Nat) : Nat :=
  if numerator = 0 then 0
  else
    let scale := scaleOf numerator denominator
    let (whole, rest, divisor) := scaledDiv numerator denominator scale
    let up := divisor < 2 * rest || (2 * rest == divisor && whole % 2 == 1)
    min (((scale + 1074).toNat <<< 52) + (if up then whole + 1 else whole)) (2047 <<< 52)

/-- The double nearest to `digits * 10 ^ exponent`. Exponents that settle the answer by
themselves are cut off first, so that no number is larger than the text it was read from calls for. -/
def nearest (negative : Bool) (digits : Nat) (exponent : Int) : Float :=
  let size :=
    if digits = 0 then 0
    else if 310 < exponent then nearestBits (Nat.pow 10 310) 1
    else if exponent < -((Nat.log2 digits : Int) + 331) then 0
    else if 0 ≤ exponent then nearestBits (digits * Nat.pow 10 exponent.toNat) 1
    else nearestBits digits (Nat.pow 10 (-exponent).toNat)
  Float.ofBits (UInt64.ofNat (if negative then 0x8000000000000000 + size else size))

end DragonflyFabric.Decimal
