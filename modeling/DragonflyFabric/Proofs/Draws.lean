import DragonflyFabric.Random.Draw
import Mathlib.Algebra.Order.Floor.Div
import Mathlib.Order.Interval.Finset.Nat

/-!
# Draws are below their bound, and fair

A draw multiplies a word by the bound and takes the upper half of the product, which is below the bound. The products
that lead to one number fill a stretch of the length of the range of words; those of them that are accepted fill its
beginning, which is as long for one number as for another, and a multiple of the bound. So as many words give one number
as another: `card_words`.
-/

namespace DragonflyFabric.Random

variable {bound value word : Nat}

theorem upper_half_lt (h : 0 < bound) (hword : word < 2 ^ 64) : (word * bound) >>> 64 < bound := by
  rw [Nat.shiftRight_eq_div_pow]
  exact Nat.div_lt_of_lt_mul (Nat.mul_lt_mul_of_pos_right hword h)

/-- What a single word gives, where it is accepted. -/
def ofWord? (bound word : Nat) : Option Nat :=
  if word * bound % 0x10000000000000000 ≤ zone bound then some ((word * bound) >>> 64) else none

theorem drawWithin_succ (bound tries : Nat) (s : Stream) :
    drawWithin bound (tries + 1) s =
      match ofWord? bound s.next.1.toNat with
      | some value => (value, s.next.2)
      | none => drawWithin bound tries s.next.2 := by
  rw [drawWithin, ofWord?]
  dsimp only
  split <;> rfl

theorem ofWord?_lt (h : 0 < bound) (hword : word < 2 ^ 64) (hvalue : ofWord? bound word = some value) :
    value < bound := by
  rw [ofWord?, Option.ite_none_right_eq_some] at hvalue
  rw [← Option.some.inj hvalue.2]
  exact upper_half_lt h hword

theorem drawWithin_lt (h : 0 < bound) (tries : Nat) (s : Stream) : (drawWithin bound tries s).1 < bound := by
  induction tries generalizing s with
  | zero => exact upper_half_lt h s.next.1.toNat_lt
  | succ tries ih =>
    rw [drawWithin_succ]
    cases hword : ofWord? bound s.next.1.toNat with
    | none => exact ih _
    | some value => exact ofWord?_lt h s.next.1.toNat_lt hword

theorem draw_lt (h : 0 < bound) (s : Stream) : (draw bound s).1 < bound := drawWithin_lt h 1000 s

/-! ### How many words give a number -/

theorem zone_add_one (h : 0 < bound) : zone bound + 1 = bound * 2 ^ (63 - Nat.log2 bound) := by
  have hpos : 0 < bound * 2 ^ (63 - Nat.log2 bound) := Nat.mul_pos h (Nat.two_pow_pos _)
  rw [zone, Nat.shiftLeft_eq]
  exact Nat.sub_add_cancel hpos

/-- The bound is shifted as far as it stays in sixty-four bits. -/
theorem zone_lt (h : 0 < bound) (hbound : bound < 2 ^ 64) : zone bound < 2 ^ 64 := by
  have hlog : Nat.log2 bound < 64 := (Nat.log2_lt (Nat.ne_of_gt h)).mpr hbound
  have hlt : bound < 2 ^ (Nat.log2 bound + 1) := Nat.lt_log2_self
  calc zone bound + 1
      = bound * 2 ^ (63 - Nat.log2 bound) := zone_add_one h
    _ ≤ 2 ^ (Nat.log2 bound + 1) * 2 ^ (63 - Nat.log2 bound) := Nat.mul_le_mul_right _ (Nat.le_of_lt hlt)
    _ = 2 ^ 64 := by rw [← Nat.pow_add]; congr 1; omega

/-- The words that give a number are those whose products lie in one stretch as long as the zone. -/
theorem ofWord?_eq_some_iff (h : 0 < bound) (hbound : bound < 2 ^ 64) :
    ofWord? bound word = some value ↔
      value * 2 ^ 64 ≤ word * bound ∧ word * bound < value * 2 ^ 64 + bound * 2 ^ (63 - Nat.log2 bound) := by
  have hlt := zone_lt h hbound
  rw [← zone_add_one h, ofWord?, Nat.shiftRight_eq_div_pow]
  generalize word * bound = product
  have hparts := Nat.div_add_mod product (2 ^ 64)
  have hrest := Nat.mod_lt product (Nat.two_pow_pos 64)
  split
  · rw [Option.some_inj]
    omega
  · constructor
    · intro h
      cases h
    · omega

/-- Steps of one length reach two places that lie so many steps apart as many steps apart. -/
theorem ceilDiv_add_le_iff (h : 0 < bound) (start steps word : Nat) :
    start ⌈/⌉ bound + steps ≤ word ↔ start + bound * steps ≤ bound * word := by
  by_cases hsteps : steps ≤ word
  · obtain ⟨rest, rfl⟩ := Nat.exists_eq_add_of_le' hsteps
    rw [Nat.add_le_add_iff_right, ceilDiv_le_iff_le_mul h, Nat.mul_add, Nat.add_le_add_iff_right]
  · have hmul : bound * word < bound * steps := Nat.mul_lt_mul_of_pos_left (Nat.lt_of_not_le hsteps) h
    omega

/-- **Every number below the bound has the same chances**: as many words give it as any other one. -/
theorem card_words (h : 0 < bound) (hbound : bound < 2 ^ 64) (hvalue : value < bound) :
    ((Finset.range (2 ^ 64)).filter fun word => ofWord? bound word = some value).card =
      2 ^ (63 - Nat.log2 bound) := by
  have hle := zone_lt h hbound
  have hzone := zone_add_one h
  let first := (value * 2 ^ 64) ⌈/⌉ bound
  have hwords : ((Finset.range (2 ^ 64)).filter fun word => ofWord? bound word = some value) =
      Finset.Ico first (first + 2 ^ (63 - Nat.log2 bound)) := by
    ext word
    have hfirst : first ≤ word ↔ value * 2 ^ 64 ≤ bound * word := ceilDiv_le_iff_le_mul h
    have hend := ceilDiv_add_le_iff h (value * 2 ^ 64) (2 ^ (63 - Nat.log2 bound)) word
    -- the stretch of the last number ends where the words do
    have hlast : bound * 2 ^ 64 ≤ bound * word ↔ 2 ^ 64 ≤ word := Nat.mul_le_mul_left_iff h
    have hstretch : (value + 1) * 2 ^ 64 ≤ bound * 2 ^ 64 := Nat.mul_le_mul_right _ hvalue
    rw [Finset.mem_filter, Finset.mem_range, Finset.mem_Ico, ofWord?_eq_some_iff h hbound, Nat.mul_comm word]
    omega
  rw [hwords, Nat.card_Ico, Nat.add_sub_cancel_left]

end DragonflyFabric.Random
