import DragonflyFabric.Congestion
import Mathlib

/-!
# Costs and an infinite threshold

A cost is a quotient of counts. Counts have no minus sign, and neither sums nor quotients nor rounding give them
one: `Congestion.notNegative_cost`. A product of infinity and a cost is therefore infinite, or no number at all
where the cost is zero or no number, and nothing is greater than either: `not_inf_mul_lt`.

All of this is about signs, which are followed through the operations on unpacked floats and through the packing
of their results.
-/

namespace DragonflyFabric

open Float.Model Float.Model.UnpackedFloat

/-! ### Signs of unpacked floats -/

/-- An unpacked float without a minus sign. -/
def Unsigned : UnpackedFloat → Prop
  | .notANumber => True
  | .infinity sign => sign = .positive
  | .zero sign => sign = .positive
  | .finite sign _ _ _ => sign = .positive

namespace Unsigned

variable {spec : Format} {x y : UnpackedFloat}

theorem roundWithAccuracy (spec : Format) (mantissa : Nat) (exponent : Int) (accuracy : Accuracy) :
    Unsigned (UnpackedFloat.roundWithAccuracy spec .positive mantissa exponent accuracy) := by
  rw [UnpackedFloat.roundWithAccuracy]
  dsimp only
  split <;> rfl

theorem normalize (spec : Format) {mantissa : Int} (h : 0 ≤ mantissa) (exponent : Int) :
    Unsigned (UnpackedFloat.normalize spec mantissa exponent .positive) := by
  rw [UnpackedFloat.normalize]
  split
  · next hlt =>
    rw [Int.compare_eq_lt] at hlt
    omega
  · rfl
  · exact roundWithAccuracy spec _ _ _

theorem ofNat (spec : Format) (n : Nat) : Unsigned (UnpackedFloat.ofNat spec n) :=
  normalize spec (Int.natCast_nonneg n) 0

-- Only for two finite floats is there anything to be computed; in all other cases the sign is read off.

theorem add (hx : Unsigned x) (hy : Unsigned y) : Unsigned (UnpackedFloat.add spec x y) := by
  cases x <;> cases y
  case finite.finite =>
    cases hx
    cases hy
    exact normalize spec (Int.add_nonneg (Int.natCast_nonneg _) (Int.natCast_nonneg _)) _
  all_goals
    cases hx
    cases hy
    first | rfl | trivial

theorem mul (hx : Unsigned x) (hy : Unsigned y) : Unsigned (UnpackedFloat.mul spec x y) := by
  cases x <;> cases y
  case finite.finite =>
    cases hx
    cases hy
    exact roundWithAccuracy spec _ _ _
  all_goals
    cases hx
    cases hy
    first | rfl | trivial

theorem div (hx : Unsigned x) (hy : Unsigned y) : Unsigned (UnpackedFloat.div spec x y) := by
  cases x <;> cases y
  case finite.finite =>
    cases hx
    cases hy
    exact roundWithAccuracy spec _ _ _
  all_goals
    cases hx
    cases hy
    first | rfl | trivial

theorem ofScientific (spec : Format) (mantissa : Nat) (exponent : Int) :
    Unsigned (UnpackedFloat.ofScientific spec mantissa exponent) := by
  rw [UnpackedFloat.ofScientific]
  split
  · rfl
  split
  · rfl
  split
  · rfl
  split
  · exact mul rfl rfl
  · exact div rfl rfl

/-- Infinity times such a float is infinite, or no number. -/
theorem infinity_mul (spec : Format) (hx : Unsigned x) :
    UnpackedFloat.mul spec (.infinity .positive) x = .infinity .positive ∨
      UnpackedFloat.mul spec (.infinity .positive) x = .notANumber := by
  cases x with
  | notANumber => exact .inr rfl
  | zero => exact .inr rfl
  | infinity =>
    cases hx
    exact .inl rfl
  | finite =>
    cases hx
    exact .inl rfl

/-! ### Packing -/

theorem unpackSign_pack (h : Unsigned x) : unpackSign (UnpackedFloat.pack spec x) = 0#1 := by
  cases x with
  | notANumber => exact unpackSign_packComponents _ _ _
  | infinity =>
    cases h
    exact unpackSign_packComponents _ _ _
  | zero =>
    cases h
    exact unpackSign_packComponents _ _ _
  | finite =>
    cases h
    rw [UnpackedFloat.pack]
    split
    · exact unpackSign_packComponents _ _ _
    · split <;> exact unpackSign_packComponents _ _ _

theorem unpack {bits : BitVec spec.numBits} (h : unpackSign bits = 0#1) :
    Unsigned (UnpackedFloat.unpack spec bits) := by
  rw [UnpackedFloat.unpack, h]
  split
  · split
    · rfl
    · trivial
  · split
    · split <;> rfl
    · rfl

/-- Packing keeps the sign. -/
theorem unpack_pack (h : Unsigned x) : Unsigned (Float.Model.pack x).unpack := unpack (unpackSign_pack h)

end Unsigned

/-! ### Costs -/

/-- A float without a minus sign. -/
def NotNegative (x : Float) : Prop := Unsigned x.toModel.unpack

namespace NotNegative

variable {x y : Float}

theorem add (hx : NotNegative x) (hy : NotNegative y) : NotNegative (x + y) := (Unsigned.add hx hy).unpack_pack

theorem mul (hx : NotNegative x) (hy : NotNegative y) : NotNegative (x * y) := (Unsigned.mul hx hy).unpack_pack

theorem div (hx : NotNegative x) (hy : NotNegative y) : NotNegative (x / y) := (Unsigned.div hx hy).unpack_pack

theorem one : NotNegative 1.0 := Unsigned.unpack (by decide +kernel)

/-- Counts are made floats by way of sixty-four bits where these hold them, and digit by digit otherwise. -/
theorem ofNat (n : Nat) : NotNegative (Float.ofNat n) := by
  have hunit : NotNegative Float.exactlyRepresentablePowersOfTen[0] := Unsigned.unpack (by decide +kernel)
  show NotNegative (Float.ofScientific n false 0)
  rw [Float.ofScientific]
  split
  · exact mul (Unsigned.ofNat _ _).unpack_pack hunit
  · exact (Unsigned.ofScientific _ _ _).unpack_pack

end NotNegative

theorem Congestion.notNegative_cost (c : Congestion) (port channel : Nat) : NotNegative (c.cost port channel) :=
  .div (.add (.ofNat _) .one) (.add (.ofNat _) .one)

theorem not_lt_of_infinite {x y : Float}
    (hx : x.toModel.unpack = .infinity .positive ∨ x.toModel.unpack = .notANumber) : ¬x < y := by
  intro hlt
  have hcompare : UnpackedFloat.lt x.toModel.unpack y.toModel.unpack = true := of_decide_eq_true hlt
  generalize y.toModel.unpack = u at hcompare
  rcases hx with hx | hx <;> rw [hx] at hcompare
  · cases u with
    | infinity sign => cases sign <;> cases hcompare
    | notANumber => cases hcompare
    | zero => cases hcompare
    | finite => cases hcompare
  · cases hcompare

/-- **Nothing is greater than an infinite multiple of a cost.** -/
theorem not_inf_mul_lt {x : Float} (hx : NotNegative x) (y : Float) : ¬Float.inf * x < y := by
  apply not_lt_of_infinite
  have hinf : Float.inf.toModel.unpack = .infinity .positive := rfl
  have hproduct : (Float.inf * x).toModel =
      Float.Model.pack (UnpackedFloat.mul _ Float.inf.toModel.unpack x.toModel.unpack) := rfl
  rw [hproduct, hinf]
  rcases hx.infinity_mul Format.binary64 with h | h
  · rw [h]
    exact .inl rfl
  · rw [h]
    exact .inr rfl

end DragonflyFabric
