import Argand.Littlewood.RootFree
import Argand.Proofs.Littlewood.Polynomial
import Mathlib.Algebra.Order.AbsoluteValue.Basic
import Mathlib.Analysis.Complex.Basic

/-!
# Regions without roots are without roots

In exact arithmetic, an excluded point is a root of no Littlewood polynomial (`verdict_excluded`). Moduli
are an absolute value there, on any field.

While the search goes on, a polynomial that vanishes at the point has a partial sum on the stack that it
goes on from (`PartialSum.Live`). Such a sum is not given up : the terms still to come bring it back to zero,
and finitely many of them stay strictly below their reach, which is that of all the powers
(`PartialSum.Live.norm_value_lt`). So the next sum is either live and put on the stack, or it is zero, which
stops the search (`expand?_live`). A search that has a live sum on its stack does not end in an exclusion
(`search_live`).

For the search to begin with a live sum, the constant coefficient has to be one, which a change of all
signs achieves. A point outside the unit circle is the inverse of one inside, where the polynomial with the
coefficients in the other order vanishes.
-/

namespace Argand.Littlewood

/-! ## Sums that come back to zero -/

section Sums

variable {A R : Type} [Field A] [Field R] [LinearOrder R] [IsStrictOrderedRing R]
  (norm : AbsoluteValue A R) {z : A}

theorem norm_sign {a : A} (ha : a = 1 ∨ a = -1) : norm a = 1 := by
  rcases ha with rfl | rfl
  · exact map_one norm
  · rw [map_neg_eq_map, map_one]

/-- Finitely many powers with signs do not reach as far as all of them. -/
theorem norm_horner_lt (pos : 0 < norm z) (small : norm z < 1) {as : List A} (signs : Signs as) :
    norm (horner z as) * (1 - norm z) < 1 := by
  induction as with
  | nil => simp [horner]
  | cons a as ih =>
    have ih := ih fun b hb => signs b (List.mem_cons_of_mem a hb)
    have triangle : norm (horner z (a :: as)) ≤ 1 + norm z * norm (horner z as) := by
      calc norm (a + z * horner z as) ≤ norm a + norm (z * horner z as) := norm.add_le _ _
        _ = 1 + norm z * norm (horner z as) := by
          rw [norm_sign norm (signs a List.mem_cons_self), map_mul]
    have room : 0 ≤ 1 - norm z := by linarith
    calc norm (horner z (a :: as)) * (1 - norm z)
        ≤ (1 + norm z * norm (horner z as)) * (1 - norm z) := mul_le_mul_of_nonneg_right triangle room
      _ = 1 - norm z + norm z * (norm (horner z as) * (1 - norm z)) := by ring
      _ < 1 - norm z + norm z * 1 := by gcongr
      _ = 1 := by ring

/-- A sum from which some signs for the powers to come lead to zero. -/
structure PartialSum.Live (z : A) (t : PartialSum A R) : Prop where
  power_ne_zero : t.power ≠ 0
  reach_eq : t.reach = norm t.power * (norm z / (1 - norm z))
  vanishes : ∃ as, as ≠ [] ∧ Signs as ∧ t.value + t.power * z * horner z as = 0

variable {norm}

theorem PartialSum.Live.norm_value_lt {t : PartialSum A R} (live : t.Live norm z) (pos : 0 < norm z)
    (small : norm z < 1) : norm t.value < t.reach := by
  obtain ⟨as, -, signs, zero⟩ := live.vanishes
  have room : 0 < 1 - norm z := by linarith
  have scale : 0 < norm t.power * norm z := mul_pos (norm.pos live.power_ne_zero) pos
  have value : norm t.value = norm t.power * norm z * norm (horner z as) := by
    rw [eq_neg_of_add_eq_zero_left zero, map_neg_eq_map, map_mul, map_mul]
  rw [value, live.reach_eq, ← mul_div_assoc, lt_div_iff₀ room, mul_assoc (_ * _)]
  exact mul_lt_of_lt_one_right scale (norm_horner_lt norm pos small signs)

end Sums

/-! ## The stack -/

theorem PartialSum.mem_push {A R : Type} [Modulus A R] [LT R] [DecidableLT R] {stack : List (PartialSum A R)}
    {s t : PartialSum A R} :
    t ∈ PartialSum.push stack s ↔ t ∈ stack ∨ t = s ∧ Modulus.modulus s.value < s.reach := by
  rw [push]
  split
  · rename_i h
    simp [h, or_comm]
  · rename_i h
    simp [h]

namespace PartialSum

variable {A R : Type} [Field A] [Field R] [Modulus A R] {z : A}

/-- The sum with one term more. -/
def next (z : A) (t : PartialSum A R) (a : A) : PartialSum A R :=
  ⟨t.value + a * (t.power * z), t.reach - Modulus.modulus (t.power * z), t.power * z⟩

theorem next_one (t : PartialSum A R) : t.next z 1 =
    ⟨t.value + t.power * z, t.reach - Modulus.modulus (t.power * z), t.power * z⟩ := by
  rw [next, one_mul]

theorem next_neg_one (t : PartialSum A R) : t.next z (-1) =
    ⟨t.value - t.power * z, t.reach - Modulus.modulus (t.power * z), t.power * z⟩ := by
  rw [next, neg_one_mul, ← sub_eq_add_neg]

/-- The next sums on the stack, if none of them is near zero. -/
theorem expand?_eq_some [LT R] [DecidableLT R] {top : PartialSum A R} {rest stack : List (PartialSum A R)} :
    expand? z top rest = some stack ↔
      (¬Modulus.modulus (top.next z 1).value < nearZero R ∧
        ¬Modulus.modulus (top.next z (-1)).value < nearZero R) ∧
      push (push rest (top.next z 1)) (top.next z (-1)) = stack := by
  rw [next_one, next_neg_one]
  simp only [expand?, Option.ite_none_left_eq_some, Option.some_inj, Bool.or_eq_true, decide_eq_true_eq,
    not_or]

end PartialSum

/-! ## The search -/

section Search

variable {A R : Type} [Field A] [Field R] [LinearOrder R] [IsStrictOrderedRing R] [Modulus A R]
  {norm : AbsoluteValue A R} {z : A}

theorem nearZero_pos : 0 < nearZero R := by
  rw [nearZero]
  norm_num

/-- If a sum is live, so is the next one with the right sign, unless it is zero. -/
theorem PartialSum.Live.next {t : PartialSum A R} (hnorm : ∀ a : A, Modulus.modulus a = norm a)
    (live : t.Live norm z) (pos : 0 < norm z) (small : norm z < 1) :
    ∃ a, (a = 1 ∨ a = -1) ∧ ((t.next z a).value = 0 ∨ (t.next z a).Live norm z) := by
  obtain ⟨as, nonempty, signs, zero⟩ := live.vanishes
  obtain ⟨a, as, rfl⟩ := List.exists_cons_of_ne_nil nonempty
  obtain ⟨sign, signs⟩ := List.forall_mem_cons.mp signs
  have zero : (t.next z a).value + (t.next z a).power * z * horner z as = 0 := by
    rw [← zero, horner, PartialSum.next]
    ring
  refine ⟨a, sign, ?_⟩
  by_cases last : as = []
  · left
    rw [last, horner, mul_zero, add_zero] at zero
    exact zero
  · right
    have room : 1 - norm z ≠ 0 := by linarith
    refine ⟨mul_ne_zero live.power_ne_zero (norm.pos_iff.mp pos), ?_, as, last, signs, zero⟩
    rw [PartialSum.next, hnorm, map_mul, live.reach_eq]
    field_simp
    ring

/-- A step of the search keeps a live sum on the stack. -/
theorem expand?_live {top : PartialSum A R} {rest stack : List (PartialSum A R)}
    (hnorm : ∀ a : A, Modulus.modulus a = norm a) (pos : 0 < norm z) (small : norm z < 1)
    (h : expand? z top rest = some stack) (live : ∃ t ∈ top :: rest, t.Live norm z) :
    ∃ t ∈ stack, t.Live norm z := by
  obtain ⟨⟨farPlus, farMinus⟩, rfl⟩ := PartialSum.expand?_eq_some.mp h
  obtain ⟨t, ht, live⟩ := live
  rcases List.mem_cons.mp ht with rfl | ht
  · obtain ⟨a, sign, zero | next⟩ := live.next hnorm pos small
    · have near : Modulus.modulus (t.next z a).value < nearZero R := by
        rw [zero, hnorm, map_zero]
        exact nearZero_pos
      rcases sign with rfl | rfl
      · exact (farPlus near).elim
      · exact (farMinus near).elim
    · have within : Modulus.modulus (t.next z a).value < (t.next z a).reach := by
        rw [hnorm]
        exact next.norm_value_lt pos small
      refine ⟨t.next z a, ?_, next⟩
      rcases sign with rfl | rfl
      · exact PartialSum.mem_push.mpr (.inl (PartialSum.mem_push.mpr (.inr ⟨rfl, within⟩)))
      · exact PartialSum.mem_push.mpr (.inr ⟨rfl, within⟩)
  · exact ⟨t, PartialSum.mem_push.mpr (.inl (PartialSum.mem_push.mpr (.inl ht))), live⟩

/-- A search with a live sum on the stack shows nothing. -/
theorem search_live (hnorm : ∀ a : A, Modulus.modulus a = norm a) (pos : 0 < norm z) (small : norm z < 1) :
    ∀ (n : Nat) (stack : List (PartialSum A R)), (∃ t ∈ stack, t.Live norm z) →
      search z n stack = .possible
  | _, [], live => by
    obtain ⟨t, ht, -⟩ := live
    exact (List.not_mem_nil ht).elim
  | 0, _ :: _, _ => rfl
  | n + 1, top :: rest, live => by
    rw [search]
    split
    · rfl
    · rename_i stack hstack
      split
      · rfl
      · exact search_live hnorm pos small n stack (expand?_live hnorm pos small hstack live)

/-! ## The verdict -/

/-- A point whose inside has been searched is no root. -/
theorem horner_ne_zero_of_inside (hnorm : ∀ a : A, Modulus.modulus a = norm a)
    (h : verdictInside z (norm z) = .excluded) {as : List A} (nonempty : as ≠ []) (signs : Signs as) :
    horner z as ≠ 0 := by
  intro zero
  rw [verdictInside] at h
  split at h
  · cases h
  rename_i inside
  obtain ⟨a, as, rfl⟩ := List.exists_cons_of_ne_nil nonempty
  obtain ⟨sign, signs⟩ := List.forall_mem_cons.mp signs
  have unit : a * a = 1 := by
    rcases sign with rfl | rfl <;> simp
  have tail : as ≠ [] ∧ z ≠ 0 := by
    have ne_zero : a ≠ 0 := by
      rintro rfl
      simp at unit
    constructor
    · rintro rfl
      simp [horner, ne_zero] at zero
    · rintro rfl
      simp [horner, ne_zero] at zero
  have pos : 0 < norm z := norm.pos tail.2
  have small : norm z < 1 := by
    rw [searchRadius, not_lt] at inside
    exact inside.trans_lt (by norm_num)
  have live : (⟨1, norm z / (1 - norm z), 1⟩ : PartialSum A R).Live norm z := by
    refine ⟨one_ne_zero, by rw [map_one, one_mul], as.map (a * ·), ?_, Signs.mul sign signs, ?_⟩
    · simpa using tail.1
    · rw [horner] at zero
      rw [horner_mul]
      linear_combination a * zero - unit
  rw [search_live hnorm pos small _ _ ⟨_, List.mem_singleton_self _, live⟩] at h
  cases h

/-- A point that has been excluded is no root, whatever the signs. -/
theorem horner_ne_zero (hnorm : ∀ a : A, Modulus.modulus a = norm a) (h : verdict z = .excluded)
    {as : List A} (nonempty : as ≠ []) (signs : Signs as) : horner z as ≠ 0 := by
  rw [verdict, hnorm] at h
  split at h
  · rename_i outside
    have hz : z ≠ 0 := norm.pos_iff.mp (one_pos.trans outside)
    rw [one_div, ← map_inv₀] at h
    intro zero
    have reversed := horner_reverse hz as
    rw [zero, mul_zero] at reversed
    refine horner_ne_zero_of_inside hnorm h (by simpa using nonempty) signs.reverse ?_
    exact (mul_eq_zero.mp reversed).resolve_right (pow_ne_zero _ hz)
  · exact horner_ne_zero_of_inside hnorm h nonempty signs

/-- At an excluded point no sum of powers with signs is zero, and in particular no Littlewood polynomial
has a root there. -/
theorem verdict_excluded [HAdd A R A] (norm : AbsoluteValue A R)
    (hnorm : ∀ a : A, Modulus.modulus a = norm a) (adds : AddsSigns A R) (h : verdict z = .excluded) :
    (∀ (d : ℕ) (s : ℕ → A), (∀ k ≤ d, s k = 1 ∨ s k = -1) →
      ∑ k ∈ Finset.range (d + 1), s k * z ^ k ≠ 0) ∧
    ∀ id : UInt32, 2 ≤ id → evaluate (R := R) id z ≠ 0 := by
  constructor
  · intro d s signs
    rw [← horner_range]
    refine horner_ne_zero hnorm h (by simp) fun a ha => ?_
    obtain ⟨k, hk, rfl⟩ := List.mem_map.mp ha
    exact signs k (Nat.lt_succ_iff.mp (List.mem_range.mp hk))
  · intro id hid
    rw [evaluate_eq_horner adds]
    refine horner_ne_zero hnorm h ?_ (signs_coefficients _ id).reverse
    have degree : 0 < id.toNat.log2 := by
      have : 2 ≤ id.toNat := UInt32.le_iff_toNat_le.mp hid
      exact (Nat.le_log2 (by omega)).mpr this
    rw [ne_eq, List.reverse_eq_nil_iff, ← List.length_eq_zero_iff, length_coefficients]
    omega

end Search

noncomputable instance complexModulus : Modulus ℂ ℝ := ⟨fun z => ‖z‖⟩

noncomputable instance complexAddReal : HAdd ℂ ℝ ℂ := ⟨fun a x => a + (x : ℂ)⟩

/-- Two is excluded, through its inverse, and so is no root of any of the polynomials. -/
theorem verdict_excluded_two : verdict (2 : ℂ) = .excluded ∧
    (∀ (d : ℕ) (s : ℕ → ℂ), (∀ k ≤ d, s k = 1 ∨ s k = -1) →
      ∑ k ∈ Finset.range (d + 1), s k * 2 ^ k ≠ 0) ∧
    ∀ id : UInt32, 2 ≤ id → evaluate (R := ℝ) id (2 : ℂ) ≠ 0 := by
  have modulus : ∀ z : ℂ, Modulus.modulus z = ‖z‖ := fun _ => rfl
  have outside : (1 : ℝ) < Modulus.modulus (2 : ℂ) := by
    rw [modulus, Complex.norm_ofNat]
    norm_num
  have plus : ‖(1 + 1 * 2⁻¹ : ℂ)‖ = 3 / 2 := by norm_num
  have minus : ‖(1 - 1 * 2⁻¹ : ℂ)‖ = 1 / 2 := by norm_num
  have half : ‖(1 * 2⁻¹ : ℂ)‖ = 1 / 2 := by norm_num
  have excluded : verdict (2 : ℂ) = .excluded := by
    rw [verdict, if_pos outside, verdictInside, searchSteps, search, expand?]
    simp only [modulus, Complex.norm_ofNat, plus, minus, half, nearZero, searchRadius, PartialSum.push]
    norm_num [mostWaiting, search]
  have adds : AddsSigns ℂ ℝ :=
    ⟨fun a => congrArg (a + ·) Complex.ofReal_one, fun a => congrArg (a + ·) (by simp)⟩
  exact ⟨excluded, verdict_excluded (IsAbsoluteValue.toAbsoluteValue norm) (fun _ => rfl) adds excluded⟩

end Argand.Littlewood
