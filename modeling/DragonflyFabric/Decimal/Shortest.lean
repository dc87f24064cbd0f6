import DragonflyFabric.Decimal.Double

/-!
The fewest decimal digits that read back as a given double.

The reals that round to `mantissa * 2 ^ exponent` form an interval, with its ends when the mantissa
is even. On the grid of numbers with one digit, then two, and so on, only the two neighbours of the
value can be the nearest point inside that interval; the first grid with such a point wins.
-/

namespace DragonflyFabric.Decimal

/-- A decimal number `digits * 10 ^ exponent`. -/
structure Digits where
  digits : Nat
  exponent : Int
  deriving DecidableEq

/-- How many decimal digits a number has; none for zero. -/
def width (n : Nat) : Nat := if n = 0 then 0 else (Nat.toDigits 10 n).length

/-- The greatest power of ten that is at most a positive fraction. -/
def order (numerator denominator : Nat) : Int :=
  if denominator ≤ numerator then
    (width (numerator / denominator) : Int) - 1
  else
    -(width ((denominator + numerator - 1) / numerator - 1) : Int)

/-- The interval of reals that round to a positive double, in units of a quarter of its last bit:
the value, the lower end, the upper end. Below a power of two the neighbour is twice as near. -/
def quarters (mantissa : Nat) (exponent : Int) : Nat × Nat × Nat :=
  let value := 4 * mantissa
  let below := if mantissa = Double.leadingBit ∧ -1074 < exponent then 1 else 2
  (value, value - below, value + 2)

/-- `digits * 10 ^ power` and the number of quarters `q`, as naturals over one denominator. -/
def compareOver (digits : Nat) (power : Int) (q : Nat) (exponent : Int) : Nat × Nat :=
  let (d, q) := if 0 ≤ power then (digits * Nat.pow 10 power.toNat, q) else (digits, q * Nat.pow 10 (-power).toNat)
  if 0 ≤ exponent - 2 then (d, q <<< (exponent - 2).toNat) else (d <<< (2 - exponent).toNat, q)

/-- Whether `digits * 10 ^ power` rounds to the double `mantissa * 2 ^ exponent`. -/
def readsBack (mantissa : Nat) (exponent : Int) (digits : Nat) (power : Int) : Bool :=
  let (_, low, high) := quarters mantissa exponent
  let (l, low) := compareOver digits power low exponent
  let (h, high) := compareOver digits power high exponent
  if mantissa % 2 = 0 then low ≤ l && h ≤ high else low < l && h < high

/-- The best number with `count` digits that reads back, if there is one: of two the nearer, and the
upper of two equally near. -/
def withDigits? (mantissa : Nat) (exponent : Int) (ten : Int) (count : Nat) : Option Digits :=
  let power := ten - count + 1
  let value := 4 * mantissa
  let (unit, size) := compareOver 1 power value exponent
  let below := size / unit
  let rest := size % unit
  let low := readsBack mantissa exponent below power
  let high := readsBack mantissa exponent (below + 1) power
  if low && high then some ⟨if 2 * rest < unit then below else below + 1, power⟩
  else if low then some ⟨below, power⟩
  else if high then some ⟨below + 1, power⟩
  else none

/-- Takes zeros off the end of the digits. -/
def Digits.trim : Nat → Digits → Digits
  | 0, n => n
  | steps + 1, n =>
    if n.digits ≠ 0 ∧ n.digits % 10 = 0 then trim steps ⟨n.digits / 10, n.exponent + 1⟩ else n

/-- The shortest digits of a positive double, the nearest of those. Seventeen digits are always enough. -/
def shortest (mantissa : Nat) (exponent : Int) : Digits :=
  let numerator := if 0 ≤ exponent then mantissa <<< exponent.toNat else mantissa
  let denominator := if 0 ≤ exponent then 1 else 1 <<< (-exponent).toNat
  let ten := order numerator denominator
  let found := (List.range 17).findSome? fun n => withDigits? mantissa exponent ten (n + 1)
  (found.getD ⟨0, 0⟩).trim 20

end DragonflyFabric.Decimal
