import Mathlib.Algebra.Polynomial.Splits
import Mathlib.LinearAlgebra.Lagrange
import Mathlib.RingTheory.SimpleRing.Principal
import Mathlib.Tactic.LinearCombination
import Argand.Proofs.Littlewood.Estimates
import Argand.Proofs.Littlewood.Words
import Argand.Proofs.Point

/-!
# Corrections and the sum of the roots

In exact arithmetic over a field, a refinement takes from an estimate a part of its correction, the value of
the monic polynomial there (`monicPolynomial`), divided by the product of the differences to the other
estimates (`refine_eq_sub`). A pass does so in every slot at once (`Tracker.getElem?_table_advance`).

Such quotients are those of Lagrange's interpolation. Up to a polynomial of smaller degree, the monic
polynomial is the product of the differences to all estimates, which vanishes at each of them. So the
corrections add up to the highest coefficient of that smaller one : the second coefficient of the monic
polynomial and the sum of the estimates (`sum_eval_div_prod`), which is how far the estimates are from the
roots altogether (`sum_roots_polynomial`). A full step takes them all the way, and a smaller one a part of it
(`refine_moves_sum`).
-/

namespace Argand.Littlewood

open Polynomial Finset

/-! ## Monic polynomials at distinct places -/

section Monic

variable {A : Type} [Field A]

/-- At as many distinct places as its degree says, the values of a monic polynomial, divided by the
differences to the other places, add up to its second coefficient and the sum of the places. -/
theorem sum_eval_div_prod {p : A[X]} {d : ℕ} (monic : p.Monic) (degree : p.natDegree = d) (positive : 0 < d)
    {z : ℕ → A} (apart : Set.InjOn z (range d)) :
    ∑ k ∈ range d, p.eval (z k) / ∏ j ∈ (range d).erase k, (z k - z j) =
      p.coeff (d - 1) + ∑ k ∈ range d, z k := by
  have below : (p - Lagrange.nodal (range d) z).degree < #(range d) := by
    have same : p.degree = (Lagrange.nodal (range d) z).degree := by
      rw [degree_eq_natDegree monic.ne_zero, degree, Lagrange.degree_nodal, card_range]
    have leads : p.leadingCoeff = (Lagrange.nodal (range d) z).leadingCoeff := by
      rw [monic.leadingCoeff, Lagrange.nodal_monic.leadingCoeff]
    calc (p - Lagrange.nodal (range d) z).degree < p.degree :=
          degree_sub_lt_left same monic.ne_zero leads
      _ = #(range d) := by rw [same, Lagrange.degree_nodal]
  have value : ∀ k ∈ range d, (p - Lagrange.nodal (range d) z).eval (z k) = p.eval (z k) := by
    intro k hk
    rw [eval_sub, Lagrange.eval_nodal_at_node hk, sub_zero]
  -- the quotients do not see the nodal polynomial, whose second coefficient is the sum, but for its sign
  have highest := Lagrange.coeff_eq_sum apart below
  rw [sum_congr rfl fun k hk => by rw [value k hk], coeff_sub, Lagrange.nodal_eq,
    prod_X_sub_C_coeff_card_pred _ _ (by rwa [card_range]), card_range, sub_neg_eq_add] at highest
  exact highest.symm

end Monic

/-! ## The polynomial of a word -/

section Words

variable (A : Type) [CommRing A] {id : UInt32} {d : ℕ}

/-- The polynomial that a word stands for. -/
noncomputable def polynomial (id : UInt32) : A[X] :=
  ∑ j ∈ range ((degree id).toNat + 1), C (coefficientAt A id j) * X ^ ((degree id).toNat - j)

theorem polynomial_eq (h : degree id = d) :
    polynomial A id = ∑ j ∈ range (d + 1), C (coefficientAt A id j) * X ^ (d - j) := by
  rw [polynomial, h, Int.toNat_natCast]

theorem coeff_polynomial (h : degree id = d) {j : ℕ} (hj : j ≤ d) :
    (polynomial A id).coeff (d - j) = coefficientAt A id j := by
  rw [polynomial_eq A h, finsetSum_coeff, sum_eq_single_of_mem j (mem_range.mpr (by omega)) ?_,
    coeff_C_mul_X_pow, if_pos rfl]
  intro i hi other
  rw [coeff_C_mul_X_pow, if_neg]
  have := mem_range.mp hi
  omega

theorem coefficientAt_mul_self (word : UInt32) (j : ℕ) :
    coefficientAt A word j * coefficientAt A word j = 1 := by
  rcases coefficientAt_eq (A := A) word j with plus | minus
  · rw [plus, one_mul]
  · rw [minus, neg_mul_neg, one_mul]

theorem coefficientAt_ne_zero [Nontrivial A] (word : UInt32) (j : ℕ) : coefficientAt A word j ≠ 0 :=
  left_ne_zero_of_mul_eq_one (coefficientAt_mul_self A word j)

theorem natDegree_polynomial [Nontrivial A] (h : degree id = d) : (polynomial A id).natDegree = d := by
  refine natDegree_eq_of_le_of_coeff_ne_zero ?_ ?_
  · rw [polynomial_eq A h]
    exact natDegree_sum_le_of_forall_le _ _ fun j _ =>
      (natDegree_C_mul_X_pow_le _ _).trans (Nat.sub_le d j)
  · rw [← Nat.sub_zero d, coeff_polynomial A h (Nat.zero_le d)]
    exact coefficientAt_ne_zero A id 0

variable {A}

/-- Evaluating a word is evaluating its polynomial. -/
theorem eval_polynomial {R : Type} [Ring R] [HAdd A R A] {ι : R →+* A}
    (adds : ∀ (a : A) (x : R), a + x = a + ι x) (h : degree id = d) (z : A) :
    (polynomial A id).eval z = evaluate (R := R) id z := by
  rw [polynomial_eq A h, evaluate_eq_sum adds h, eval_finsetSum]
  simp only [eval_mul, eval_C, eval_pow, eval_X]

end Words

section Fields

variable (A : Type) [Field A] {id : UInt32} {d : ℕ}

/-- The polynomial of a word by its leading coefficient, which is its own inverse. -/
noncomputable def monicPolynomial (id : UInt32) : A[X] :=
  C (coefficientAt A id 0) * polynomial A id

theorem natDegree_monicPolynomial (h : degree id = d) : (monicPolynomial A id).natDegree = d := by
  rw [monicPolynomial, natDegree_C_mul (coefficientAt_ne_zero A id 0), natDegree_polynomial A h]

theorem monic_monicPolynomial (h : degree id = d) : (monicPolynomial A id).Monic := by
  rw [Monic, leadingCoeff, natDegree_monicPolynomial A h, monicPolynomial, coeff_C_mul, ← Nat.sub_zero d,
    coeff_polynomial A h (Nat.zero_le d), coefficientAt_mul_self]

theorem coeff_monicPolynomial (h : degree id = d) (positive : 1 ≤ d) :
    (monicPolynomial A id).coeff (d - 1) = coefficientAt A id 1 / coefficientAt A id 0 := by
  rw [monicPolynomial, coeff_C_mul, coeff_polynomial A h positive, eq_div_iff (coefficientAt_ne_zero A id 0),
    mul_right_comm, coefficientAt_mul_self, one_mul]

end Fields

/-- The sum of the roots, wherever there are all of them. -/
theorem sum_roots_polynomial {A K : Type} [Field A] [Field K] (φ : A →+* K) {id : UInt32} {d : ℕ}
    (h : degree id = d) (positive : 1 ≤ d) (splits : ((polynomial A id).map φ).Splits) :
    ((polynomial A id).map φ).roots.sum = -φ (coefficientAt A id 1 / coefficientAt A id 0) := by
  have lead : φ (coefficientAt A id 0) ≠ 0 := (map_ne_zero φ).mpr (coefficientAt_ne_zero A id 0)
  have degree := natDegree_polynomial A h
  have next : ((polynomial A id).map φ).nextCoeff = φ (coefficientAt A id 1) := by
    rw [nextCoeff_map φ.injective, nextCoeff_of_natDegree_pos (by omega), degree,
      coeff_polynomial A h positive]
  have leading : ((polynomial A id).map φ).leadingCoeff = φ (coefficientAt A id 0) := by
    rw [leadingCoeff_map, leadingCoeff, degree, ← coeff_polynomial A h (Nat.zero_le d), Nat.sub_zero]
  have vieta := splits.nextCoeff_eq_neg_sum_roots_mul_leadingCoeff
  rw [next, leading] at vieta
  rw [map_div₀, vieta, neg_mul, neg_div, neg_neg, mul_div_cancel_left₀ _ lead]

/-! ## Refinements -/

theorem separation_eq_prod {A : Type} [CommRing A] (read : ℕ → A) (z : A) (base k d : ℕ) :
    separation read z base k d = ∏ j ∈ (range d).erase k, (z - read (base + j)) := by
  induction d with
  | zero => rfl
  | succ d ih =>
    rw [separation_succ, ih]
    split
    · rename_i own
      subst own
      rw [range_add_one, erase_insert notMem_range_self, erase_eq_of_notMem notMem_range_self]
    · rename_i other
      rw [range_add_one, erase_insert_of_ne other, prod_insert, mul_comm]
      exact fun h => notMem_range_self (mem_of_mem_erase h)

section Refinements

variable {A R : Type} [Field A] [Ring R] [HAdd A R A] [HMul A R A] [FinitePoint A] {ι : R →+* A}
  (arithmetic : Exact ι) (s : Shape) (read : ℕ → A) {id d : ℕ}

include arithmetic

/-- A refinement takes a part of the correction from an estimate. -/
theorem refine_eq_sub (h : degree id.toUInt32 = d) (room : d ≤ s.maxDegree) (step : R) {k : ℕ} (hk : k < d) :
    refine s read (s.address id k) step = read (s.address id k) -
      ι step * ((monicPolynomial A id.toUInt32).eval (read (s.address id k)) /
        ∏ j ∈ (range d).erase k, (read (s.address id k) - read (s.address id j))) := by
  have used : ¬(degree id.toUInt32).toNat ≤ k := by omega
  have block : ∀ j, s.address id 0 + j = s.address id j := fun _ => rfl
  rw [refine, s.split_address (hk.trans_le room)]
  simp only [if_neg used, arithmetic.isFinite, if_true]
  rw [h, Int.toNat_natCast, separation_eq_prod, arithmetic.mul_eq, arithmetic.mul_eq, map_coefficient,
    ← eval_polynomial arithmetic.add_eq h, monicPolynomial, eval_mul, eval_C]
  simp only [block]
  ring

theorem sum_refine (h : degree id.toUInt32 = d) (positive : 1 ≤ d) (room : d ≤ s.maxDegree)
    (apart : Set.InjOn (fun k => read (s.address id k)) (range d)) (step : R) :
    ∑ k ∈ range d, refine s read (s.address id k) step =
      (1 - ι step) * ∑ k ∈ range d, read (s.address id k) -
        ι step * (coefficientAt A id.toUInt32 1 / coefficientAt A id.toUInt32 0) := by
  have corrections := sum_eval_div_prod (monic_monicPolynomial A h) (natDegree_monicPolynomial A h)
    positive apart
  rw [coeff_monicPolynomial A h positive] at corrections
  rw [sum_congr rfl fun k hk => refine_eq_sub arithmetic s read h room step (mem_range.mp hk),
    sum_sub_distrib, ← mul_sum, corrections]
  ring

/-- Estimates at the roots stay there. -/
theorem refine_of_root (h : degree id.toUInt32 = d) (room : d ≤ s.maxDegree) (step : R) {k : ℕ} (hk : k < d)
    (root : evaluate (R := R) id.toUInt32 (read (s.address id k)) = 0) :
    refine s read (s.address id k) step = read (s.address id k) := by
  rw [refine_eq_sub arithmetic s read h room step hk, monicPolynomial, eval_mul,
    eval_polynomial arithmetic.add_eq h, root, mul_zero, zero_div, mul_zero, sub_zero]

/-- A full step solves a linear polynomial. -/
theorem evaluate_linear (h : degree id.toUInt32 = 1) (room : 1 ≤ s.maxDegree) (w : A) :
    evaluate (R := R) id.toUInt32 w = 0 ↔ w = refine s read (s.address id 0) (1 : R) := by
  have lead := coefficientAt_ne_zero A id.toUInt32 0
  have solved := sum_refine arithmetic s read (d := 1) h le_rfl room (by simp) 1
  rw [sum_range_one, map_one, sub_self, zero_mul, one_mul, zero_sub] at solved
  rw [solved, evaluate_eq_sum arithmetic.add_eq (d := 1) h, sum_range_succ, sum_range_one, Nat.sub_zero,
    pow_one, Nat.sub_self, pow_zero, mul_one, ← neg_div, eq_div_iff lead, eq_neg_iff_add_eq_zero, mul_comm]

/-- One pass over distinct estimates in all slots of a polynomial of degree `d` takes their sum the part of
the way to the sum of the roots that the step says. With a full step it is the sum of the roots, wherever the
polynomial has all of them, and the estimate of a linear polynomial is the root. Estimates that are the roots
stay as they are, whatever the step. -/
theorem refine_moves_sum (h : degree id.toUInt32 = d) (positive : 1 ≤ d) (room : d ≤ s.maxDegree)
    (apart : Set.InjOn (fun k => read (s.address id k)) (range d)) :
    let z : ℕ → A := fun k => read (s.address id k)
    let next : R → ℕ → A := fun step k => refine s read (s.address id k) step
    (∀ step : R, ∑ k ∈ range d, next step k = (1 - ι step) * ∑ k ∈ range d, z k -
      ι step * (coefficientAt A id.toUInt32 1 / coefficientAt A id.toUInt32 0)) ∧
    (∀ (K : Type) [Field K] (φ : A →+* K), ((polynomial A id.toUInt32).map φ).Splits →
      φ (∑ k ∈ range d, next 1 k) = ((polynomial A id.toUInt32).map φ).roots.sum) ∧
    (d = 1 → ∀ w : A, evaluate (R := R) id.toUInt32 w = 0 ↔ w = next 1 0) ∧
    ((∀ k < d, evaluate (R := R) id.toUInt32 (z k) = 0) → ∀ step : R, ∀ k < d, next step k = z k) := by
  intro z next
  have sum := sum_refine arithmetic s read h positive room apart
  refine ⟨sum, ?_, ?_, ?_⟩
  · intro K _ φ splits
    rw [sum_roots_polynomial φ h positive splits, sum, map_one, sub_self, zero_mul, one_mul, zero_sub,
      map_neg]
  · rintro rfl
    exact evaluate_linear arithmetic s read h room
  · intro roots step k hk
    exact refine_of_root arithmetic s read h room step hk (roots k hk)

end Refinements

/-- The polynomial `z ^ 3 + z ^ 2 + z + 1` with its roots for estimates, and `z + 1` with an estimate that
is no root. -/
theorem refine_moves_sum_cubic :
    let s : Shape := ⟨4, 16⟩
    let roots : List (Point ℚ) := [⟨-1, 0⟩, ⟨0, 1⟩, ⟨0, -1⟩]
    let read : ℕ → Point ℚ := fun address => roots.getD (address % 4) 0
    let read' : ℕ → Point ℚ := fun _ => ⟨3, 4⟩
    Exact (Point.ofReal : ℚ →+* Point ℚ) ∧ degree (31 : ℕ).toUInt32 = (3 : ℕ) ∧ 3 ≤ s.maxDegree ∧
      Set.InjOn (fun k => read (s.address 31 k)) (range 3) ∧
      (∀ k < 3, evaluate (R := ℚ) (31 : ℕ).toUInt32 (read (s.address 31 k)) = 0) ∧
      ((polynomial (Point ℚ) (31 : ℕ).toUInt32).map (RingHom.id (Point ℚ))).Splits ∧
      (∀ step : ℚ, ∀ k < 3, refine s read (s.address 31 k) step = read (s.address 31 k)) ∧
      ∑ k ∈ range 3, refine s read (s.address 31 k) (1 : ℚ) =
        ((polynomial (Point ℚ) (31 : ℕ).toUInt32).map (RingHom.id (Point ℚ))).roots.sum ∧
      degree (7 : ℕ).toUInt32 = (1 : ℕ) ∧ 1 ≤ s.maxDegree ∧
      Set.InjOn (fun k => read' (s.address 7 k)) (range 1) ∧
      ∀ w : Point ℚ, evaluate (R := ℚ) (7 : ℕ).toUInt32 w = 0 ↔
        w = refine s read' (s.address 7 0) (1 : ℚ) := by
  intro s roots read read'
  have cubic : degree (31 : ℕ).toUInt32 = (3 : ℕ) := by decide
  have linear : degree (7 : ℕ).toUInt32 = (1 : ℕ) := by decide
  have distinct : ∀ j ∈ range 3, ∀ k ∈ range 3,
      read (s.address 31 j) = read (s.address 31 k) → j = k := by decide +kernel
  have apart : Set.InjOn (fun k => read (s.address 31 k)) (range 3) :=
    fun j hj k hk => distinct j hj k hk
  have single : Set.InjOn (fun k => read' (s.address 7 k)) (range 1) := by simp
  have zero : ∀ k < 3, evaluate (R := ℚ) (31 : ℕ).toUInt32 (read (s.address 31 k)) = 0 := by
    decide +kernel
  have product : polynomial (Point ℚ) (31 : ℕ).toUInt32 =
      (X - C ⟨-1, 0⟩) * (X - C ⟨0, 1⟩) * (X - C ⟨0, -1⟩) := by
    have ones : ∀ j < 4, coefficientAt (Point ℚ) (31 : ℕ).toUInt32 j = 1 := by decide +kernel
    have real : (C ⟨-1, 0⟩ : (Point ℚ)[X]) = -1 := by
      rw [← C_1, ← C_neg]
      exact congrArg C (by decide +kernel)
    have opposite : (C ⟨0, -1⟩ : (Point ℚ)[X]) = -C ⟨0, 1⟩ := by
      rw [← C_neg]
      exact congrArg C (by decide +kernel)
    have square : (C ⟨0, 1⟩ : (Point ℚ)[X]) * C ⟨0, 1⟩ = -1 := by
      rw [← C_mul, ← C_1, ← C_neg]
      exact congrArg C (by decide +kernel)
    rw [polynomial_eq _ cubic, sum_congr rfl fun j hj => by rw [ones j (mem_range.mp hj)], sum_range_succ,
      sum_range_succ, sum_range_succ, sum_range_one, real, opposite, C_1]
    linear_combination ((X : (Point ℚ)[X]) + 1) * square
  have splits : ((polynomial (Point ℚ) (31 : ℕ).toUInt32).map (RingHom.id (Point ℚ))).Splits := by
    rw [Polynomial.map_id, product]
    exact ((Splits.X_sub_C _).mul (Splits.X_sub_C _)).mul (Splits.X_sub_C _)
  obtain ⟨-, sum, -, fixed⟩ :=
    refine_moves_sum Point.exact_rational s read cubic (by decide) (by decide) apart
  obtain ⟨-, -, solved, -⟩ :=
    refine_moves_sum Point.exact_rational s read' linear (by decide) (by decide) single
  exact ⟨Point.exact_rational, cubic, by decide, apart, zero, splits, fixed zero,
    sum (Point ℚ) (RingHom.id (Point ℚ)) splits, linear, by decide, single, solved rfl⟩

end Argand.Littlewood
