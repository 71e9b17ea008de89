import Argand.Arithmetic
import Argand.Proofs.Point
import Mathlib.Algebra.Order.Floor.Ring
import Mathlib.Data.Rat.Floor
import Mathlib.Tactic.Linarith

/-!
# Rounding in exact arithmetic

The numbers of an ordered field in which every number has a floor are rounded as the class `Rounding` says, with
its clamps, and none of them is a failed result (`ExactRounding`). Then magnitudes are absolute values, the larger
of two numbers is their maximum, and wrapping leaves the fractional part of a quotient (`ExactRounding.wrap_eq`).
The rationals are such numbers (`exactRounding_rational`), so statements about exact arithmetic can be run.
-/

namespace Argand

section Laws

variable {R : Type} [Field R] [LinearOrder R]

theorem magnitude_eq_abs [IsStrictOrderedRing R] (x : R) : magnitude x = |x| := by
  rw [magnitude]
  split
  · rename_i negative
    exact (abs_of_neg negative).symm
  · rename_i nonnegative
    exact (abs_of_nonneg (not_lt.mp nonnegative)).symm

variable [FloorRing R]

/-- The number without its fraction, which is cut off towards zero. -/
def wholePart (x : R) : ℤ :=
  if 0 ≤ x then ⌊x⌋ else ⌈x⌉

theorem wholePart_of_nonneg {x : R} (h : 0 ≤ x) : wholePart x = ⌊x⌋ :=
  if_pos h

theorem wholePart_of_neg {x : R} (h : x < 0) : wholePart x = ⌈x⌉ :=
  if_neg (not_le.mpr h)

variable (R) [Rounding R] [Finiteness R]

/-- Rounding is exact up to the clamps, and no value is a failed result. -/
structure ExactRounding : Prop where
  floor_eq : ∀ x : R, Rounding.floor x = (⌊x⌋ : R)
  ceil_eq : ∀ x : R, Rounding.ceil x = (⌈x⌉ : R)
  toNat_eq : ∀ x : R, Rounding.toNat x = min (wholePart x).toNat (UInt64.size - 1)
  toInt_eq : ∀ x : R, Rounding.toInt x = max (-2 ^ 63) (min (wholePart x) (2 ^ 63 - 1))
  remainder_eq : ∀ x n : R, Rounding.remainder x n = x - n * wholePart (x / n)
  isNaN_eq : ∀ x : R, Finiteness.isNaN x = false

end Laws

namespace ExactRounding

variable {R : Type} [Field R] [LinearOrder R] [FloorRing R] [Rounding R] [Finiteness R]

theorem larger_eq (exact : ExactRounding R) (a b : R) : larger a b = max a b := by
  rw [larger, exact.isNaN_eq, if_neg Bool.false_ne_true]
  split
  · rename_i less
    exact (max_eq_right less.le).symm
  · rename_i least
    exact (max_eq_left (not_lt.mp least)).symm

variable [IsStrictOrderedRing R]

theorem toNat_intCast (exact : ExactRounding R) {z : ℤ} (h : 0 ≤ z) :
    Rounding.toNat (z : R) = min z.toNat (UInt64.size - 1) := by
  rw [exact.toNat_eq, wholePart_of_nonneg (Int.cast_nonneg h), Int.floor_intCast]

/-- The index of the whole number below a number. -/
theorem toNat_floor (exact : ExactRounding R) {x : R} (h : 0 ≤ x) :
    Rounding.toNat (Rounding.floor x) = min ⌊x⌋₊ (UInt64.size - 1) := by
  rw [exact.floor_eq, exact.toNat_intCast (Int.floor_nonneg.mpr h), Int.floor_toNat]

theorem toNat_floor_eq_iff (exact : ExactRounding R) {x : R} (h : 0 ≤ x) {k : ℕ} (room : k < UInt64.size - 1) :
    Rounding.toNat (Rounding.floor x) = k ↔ k ≤ x ∧ x < k + 1 := by
  rw [exact.toNat_floor h, ← Nat.floor_eq_iff h]
  omega

/-- Whatever its sign, a number is wrapped into the range from zero to below `n`. -/
theorem wrap_eq (exact : ExactRounding R) (x : R) {n : R} (pos : 0 < n) : wrap x n = n * Int.fract (x / n) := by
  have remainder : Rounding.remainder x n = n * (x / n - wholePart (x / n)) := by
    rw [exact.remainder_eq, mul_sub, mul_div_cancel₀ x pos.ne']
  rw [wrap, remainder]
  rcases le_or_gt 0 (x / n) with nonneg | neg
  · have inside : ¬n * (x / n - ⌊x / n⌋) < 0 := not_lt.mpr (mul_nonneg pos.le (Int.fract_nonneg (x / n)))
    rw [wholePart_of_nonneg nonneg, if_neg inside, Int.fract]
  · rw [wholePart_of_neg neg]
    rcases Int.fract_eq_zero_or_add_one_sub_ceil (x / n) with whole | fraction
    · obtain ⟨z, hz⟩ := Int.fract_eq_zero_iff.mp whole
      rw [whole, ← hz, Int.ceil_intCast, sub_self, mul_zero, if_neg (lt_irrefl 0)]
    · have below : x / n - ⌈x / n⌉ = Int.fract (x / n) - 1 := by linarith
      have less : n * (Int.fract (x / n) - 1) < 0 :=
        mul_neg_of_pos_of_neg pos (sub_neg.mpr (Int.fract_lt_one (x / n)))
      rw [below, if_pos less, mul_sub, mul_one, sub_add_cancel]

end ExactRounding

/-! ## Arithmetic that rounds -/

section Values

variable {R K : Type} [LE R] [Add R] [Neg R] [NatCast R] [Rounding R] [Finiteness R] [Field K] [LinearOrder K]
  [FloorRing K]

/-- What doubles promise about the values of finite numbers : they are compared by their values, a value is rounded
down to a whole number without an error but for the clamps, and the opposite of a number has the opposite value. Whole
numbers of sixty-four bits and sums that do not overflow are off by at most `1 / 2 ^ 53` of themselves. -/
structure RoundedValues (val : R → K) : Prop where
  le_iff : ∀ {a b : R}, Finiteness.isFinite a = true → Finiteness.isFinite b = true → (a ≤ b ↔ val a ≤ val b)
  toInt_floor : ∀ {a : R}, Finiteness.isFinite a = true →
    Rounding.toInt (Rounding.floor a) = max (-2 ^ 63) (min ⌊val a⌋ (2 ^ 63 - 1))
  neg : ∀ {a : R}, Finiteness.isFinite a = true → Finiteness.isFinite (-a) = true ∧ val (-a) = -val a
  natCast : ∀ {n : ℕ}, n < 2 ^ 64 →
    Finiteness.isFinite (n : R) = true ∧ |val (n : R) - n| ≤ n / 2 ^ 53
  add : ∀ {a b : R}, Finiteness.isFinite a = true → Finiteness.isFinite b = true → |val a + val b| ≤ 2 ^ 1000 →
    Finiteness.isFinite (a + b) = true ∧ |val (a + b) - (val a + val b)| ≤ |val a + val b| / 2 ^ 53

end Values

/-- In exact arithmetic nothing is off. -/
theorem ExactRounding.values {R : Type} [Field R] [LinearOrder R] [IsStrictOrderedRing R] [FloorRing R] [Rounding R]
    [Finiteness R] (exact : ExactRounding R) (finite : ∀ a : R, Finiteness.isFinite a = true) :
    RoundedValues (id : R → R) where
  le_iff _ _ := Iff.rfl
  toInt_floor := by
    intro a _
    have whole : wholePart (⌊a⌋ : R) = ⌊a⌋ := by
      rw [wholePart, Int.floor_intCast, Int.ceil_intCast, ite_self]
    rw [exact.floor_eq, exact.toInt_eq, whole]
    rfl
  neg _ := ⟨finite _, rfl⟩
  natCast := by
    intro n _
    refine ⟨finite _, ?_⟩
    rw [id, sub_self, abs_zero]
    positivity
  add := by
    intro a b _ _ _
    refine ⟨finite _, ?_⟩
    rw [id, id, id, sub_self, abs_zero]
    positivity

/-! ## Rationals -/

instance roundedRationals : Rounding ℚ where
  floor x := ⌊x⌋
  ceil x := ⌈x⌉
  toNat x := min (wholePart x).toNat (UInt64.size - 1)
  toInt x := max (-2 ^ 63) (min (wholePart x) (2 ^ 63 - 1))
  remainder x n := x - n * wholePart (x / n)

instance narrowedRationals : Narrowing ℚ ℚ :=
  ⟨id⟩

theorem exactRounding_rational : ExactRounding ℚ :=
  ⟨fun _ => rfl, fun _ => rfl, fun _ => rfl, fun _ => rfl, fun _ _ => rfl, fun _ => rfl⟩

end Argand
