import Argand.Littlewood.Polynomial
import Mathlib.Algebra.BigOperators.Group.Finset.Basic
import Mathlib.Algebra.Field.Basic
import Mathlib.Tactic.LinearCombination
import Mathlib.Tactic.Ring

/-!
# The values of Littlewood polynomials

`horner z` is the value at `z` of the polynomial with some coefficients, the constant one first. What
`evaluate` computes is such a value, of the coefficients that the bits of the word are
(`evaluate_eq_horner`). The coefficients in the other order give the value at the inverse, up to a power
(`horner_reverse`), so a polynomial and its reciprocal vanish together.

Additions of a sign from other numbers are supposed to be additions of the sign (`AddsSigns`).
-/

namespace Argand.Littlewood

/-! ## Coefficients -/

section Coefficients

variable {A : Type} [Field A] {z : A}

/-- The value at `z` of the polynomial with some coefficients, the constant one first. -/
def horner (z : A) : List A → A
  | [] => 0
  | a :: as => a + z * horner z as

theorem horner_append (as bs : List A) :
    horner z (as ++ bs) = horner z as + z ^ as.length * horner z bs := by
  induction as with
  | nil => simp [horner]
  | cons a as ih =>
    rw [List.cons_append, horner, horner, ih, List.length_cons]
    ring

theorem horner_range (s : ℕ → A) (n : ℕ) :
    horner z ((List.range n).map s) = ∑ k ∈ Finset.range n, s k * z ^ k := by
  induction n with
  | zero => rfl
  | succ n ih =>
    rw [List.range_succ, List.map_append, horner_append, ih, Finset.sum_range_succ, List.length_map,
      List.length_range]
    simp [horner, mul_comm]

/-- The coefficients in the other order at the inverse. -/
theorem horner_reverse (hz : z ≠ 0) (as : List A) :
    horner z⁻¹ as.reverse * z ^ as.length = z * horner z as := by
  induction as with
  | nil => simp [horner]
  | cons a as ih =>
    have cancel : z⁻¹ ^ as.length * z ^ as.length = 1 := by
      rw [← mul_pow, inv_mul_cancel₀ hz, one_pow]
    rw [List.reverse_cons, horner_append, horner, horner, horner, List.length_reverse, List.length_cons]
    linear_combination z * ih + z * a * cancel

theorem horner_mul (a : A) (as : List A) : horner z (as.map (a * ·)) = a * horner z as := by
  induction as with
  | nil => simp [horner]
  | cons b as ih =>
    rw [List.map_cons, horner, horner, ih]
    ring

/-- All of the coefficients are one or minus one. -/
def Signs (as : List A) : Prop :=
  ∀ a ∈ as, a = 1 ∨ a = -1

theorem Signs.reverse {as : List A} (h : Signs as) : Signs as.reverse :=
  fun a ha => h a (List.mem_reverse.mp ha)

theorem Signs.mul {a : A} {as : List A} (ha : a = 1 ∨ a = -1) (h : Signs as) : Signs (as.map (a * ·)) := by
  intro b hb
  obtain ⟨c, hc, rfl⟩ := List.mem_map.mp hb
  rcases ha with rfl | rfl <;> rcases h c hc with rfl | rfl <;> simp

end Coefficients

/-! ## Words -/

section Words

variable {A R : Type} [Field A] [One R] [Neg R] [HAdd A R A]

/-- Signs among the numbers of `R` are added like those of `A`. -/
structure AddsSigns (A R : Type) [Field A] [One R] [Neg R] [HAdd A R A] : Prop where
  add_one : ∀ a : A, a + (1 : R) = a + (1 : A)
  add_neg_one : ∀ a : A, a + (-1 : R) = a + (-1 : A)

/-- The coefficients that the `n` lowest bits of a word are, that of the highest power first. -/
def coefficients (A : Type) [Field A] : Nat → UInt32 → List A
  | 0, _ => []
  | n + 1, word => coefficient word :: coefficients A n (word >>> 1)

theorem coefficient_eq (word : UInt32) : (coefficient word : A) = 1 ∨ (coefficient word : A) = -1 := by
  rw [coefficient]
  split
  · exact .inl rfl
  · exact .inr rfl

theorem signs_coefficients (n : Nat) (word : UInt32) : Signs (coefficients A n word) := by
  induction n generalizing word with
  | zero => exact fun a ha => (List.not_mem_nil ha).elim
  | succ n ih => exact List.forall_mem_cons.mpr ⟨coefficient_eq word, ih (word >>> 1)⟩

theorem length_coefficients (n : Nat) (word : UInt32) : (coefficients A n word).length = n := by
  induction n generalizing word with
  | zero => rfl
  | succ n ih => rw [coefficients, List.length_cons, ih]

theorem AddsSigns.add_coefficient (adds : AddsSigns A R) (a : A) (word : UInt32) :
    a + (coefficient word : R) = a + (coefficient word : A) := by
  rw [coefficient, coefficient]
  split
  · exact adds.add_one a
  · exact adds.add_neg_one a

theorem evaluateFrom_eq_horner (adds : AddsSigns A R) (z : A) (n : Nat) (word : UInt32) (r : A) :
    evaluateFrom (R := R) z n word r = r * z ^ n + horner z (coefficients A n word).reverse := by
  induction n generalizing word r with
  | zero => simp [evaluateFrom, coefficients, horner]
  | succ n ih =>
    rw [evaluateFrom, ih, adds.add_coefficient, coefficients, List.reverse_cons, horner_append, horner,
      horner, List.length_reverse, length_coefficients]
    ring

theorem evaluate_eq_horner (adds : AddsSigns A R) (id : UInt32) (z : A) :
    evaluate (R := R) id z = horner z (coefficients A id.toNat.log2 id).reverse := by
  rw [evaluate, evaluateFrom_eq_horner adds, zero_mul, zero_add]

end Words

end Argand.Littlewood
