import Argand.Littlewood.Polynomial
import Mathlib.Algebra.BigOperators.Group.Finset.Basic
import Mathlib.Algebra.Ring.Hom.Defs
import Mathlib.Data.Nat.Size
import Mathlib.Data.Set.Function
import Mathlib.Tactic.Ring

/-!
# Words and the polynomials they stand for

A word of degree `d` has `d + 2` bits (`degree_eq_iff`). The highest one only ends it. Those below are the
coefficients (`coefficientAt`), and `evaluate`, which consumes them from the lowest one on, gives bit `j` to
the power `d - j` (`evaluateFrom_eq_sum`). That needs no more than a commutative ring, on which the signs
act as its own one and minus one.

Since no bit but the highest is fixed, every choice of `d + 1` signs is the one of exactly one word
(`bijOn_coefficientAt`). `evaluate_decodes` puts this together.
-/

namespace Argand.Littlewood

/-! ## Coefficients -/

section Coefficients

variable {A : Type} [One A] [Neg A]

/-- The coefficient at a bit of a word : that of the highest power at the lowest bit. -/
def coefficientAt (A : Type) [One A] [Neg A] (word : UInt32) (j : ℕ) : A :=
  if word.toNat.testBit j then 1 else -1

theorem coefficient_eq_coefficientAt (word : UInt32) : (coefficient word : A) = coefficientAt A word 0 := by
  have lowest : word &&& 1 = 1 ↔ word.toNat.testBit 0 = true := by
    rw [← UInt32.toNat_inj, UInt32.toNat_and, Nat.testBit_zero, decide_eq_true_eq]
    exact Eq.congr_left (Nat.and_one_is_mod _)
  rw [coefficient, coefficientAt]
  exact if_congr lowest rfl rfl

theorem coefficientAt_shiftRight (word : UInt32) (j : ℕ) :
    coefficientAt A (word >>> 1) j = coefficientAt A word (j + 1) := by
  have shifted : (word >>> 1).toNat = word.toNat >>> 1 := UInt32.toNat_shiftRight word 1
  rw [coefficientAt, coefficientAt, shifted, Nat.testBit_shiftRight, Nat.add_comm]

theorem coefficientAt_eq (word : UInt32) (j : ℕ) :
    coefficientAt A word j = 1 ∨ coefficientAt A word j = -1 := by
  rw [coefficientAt]
  split
  · exact .inl rfl
  · exact .inr rfl

end Coefficients

/-! ## Bits -/

/-- A word of degree `d` has `d + 2` bits. -/
theorem degree_eq_iff {id : UInt32} {d : ℕ} :
    degree id = d ↔ 2 ^ (d + 1) ≤ id.toNat ∧ id.toNat < 2 ^ (d + 2) := by
  rw [degree]
  split
  · rename_i none
    have small : id.toNat < 2 := UInt32.lt_iff_toNat_lt.mp none
    have : 2 ^ 1 ≤ 2 ^ (d + 1) := Nat.pow_le_pow_right (by decide) (by omega)
    omega
  · rename_i some
    have large : 2 ≤ id.toNat := UInt32.le_iff_toNat_le.mp (UInt32.not_lt.mp some)
    rw [← Nat.log2_eq_iff (by omega)]
    omega

theorem exists_degree_eq {id : UInt32} (h : 2 ≤ id) : ∃ d : ℕ, degree id = d := by
  have large : 2 ≤ id.toNat := UInt32.le_iff_toNat_le.mp h
  have : 1 ≤ id.toNat.log2 := (Nat.le_log2 (by omega)).mpr large
  rw [degree, if_neg (UInt32.not_lt.mpr h)]
  exact ⟨id.toNat.log2 - 1, by omega⟩

theorem size_eq_of_degree {id : UInt32} {d : ℕ} (h : degree id = d) : id.toNat.size = d + 2 := by
  obtain ⟨low, high⟩ := degree_eq_iff.mp h
  exact le_antisymm (Nat.size_le.mpr high) (Nat.lt_size.mpr low)

/-- The degree by the zeros that lead the thirty-two bits. -/
theorem degree_eq_of_clz {id : UInt32} (h : 2 ≤ id) : degree id = 30 - (id.toBitVec.clz.toNat : ℤ) := by
  obtain ⟨d, hd⟩ := exists_degree_eq h
  obtain ⟨low, high⟩ := degree_eq_iff.mp hd
  have nonzero : id.toBitVec ≠ 0#32 := by
    rintro zero
    have : id.toNat = 0 := congrArg BitVec.toNat zero
    have := Nat.two_pow_pos (d + 1)
    omega
  have low' : 2 ^ (32 - 1 - id.toBitVec.clz.toNat) ≤ id.toNat :=
    BitVec.two_pow_sub_clz_le_toNat_of_ne_zero (by decide) nonzero
  have high' : id.toNat < 2 ^ (32 - id.toBitVec.clz.toNat) := BitVec.toNat_lt_two_pow_sub_clz
  have := (Nat.pow_lt_pow_iff_right (by decide)).mp (low.trans_lt high')
  have := (Nat.pow_lt_pow_iff_right (by decide)).mp (low'.trans_lt high)
  omega

/-! ## Values -/

section Values

variable {A R : Type} [CommRing A] [Ring R] [HAdd A R A] {ι : R →+* A}

omit [HAdd A R A] in
theorem map_coefficient (ι : R →+* A) (word : UInt32) : ι (coefficient word) = coefficientAt A word 0 := by
  rw [← coefficient_eq_coefficientAt, coefficient, coefficient]
  split
  · exact map_one ι
  · rw [map_neg, map_one]

/-- If numbers of `R` are added like those of `A` that they stand for, what is left of an evaluation gives
each bit its power. -/
theorem evaluateFrom_eq_sum (adds : ∀ (a : A) (x : R), a + x = a + ι x) (z : A) :
    ∀ (n : ℕ) (word : UInt32) (r : A), evaluateFrom (R := R) z n word r =
      r * z ^ n + ∑ j ∈ Finset.range n, coefficientAt A word j * z ^ (n - 1 - j)
  | 0, _, r => by simp [evaluateFrom]
  | n + 1, word, r => by
    have rest : ∀ j ∈ Finset.range n, coefficientAt A (word >>> 1) j * z ^ (n - 1 - j) =
        coefficientAt A word (j + 1) * z ^ (n - (j + 1)) := by
      intro j _
      rw [coefficientAt_shiftRight, Nat.sub_sub, Nat.add_comm 1 j]
    rw [evaluateFrom, evaluateFrom_eq_sum adds z n, adds, map_coefficient, Finset.sum_congr rfl rest,
      Nat.add_sub_cancel, Finset.sum_range_succ', Nat.sub_zero]
    ring

/-- The value of a polynomial of degree `d`. -/
theorem evaluate_eq_sum (adds : ∀ (a : A) (x : R), a + x = a + ι x) {id : UInt32} {d : ℕ}
    (h : degree id = d) (z : A) :
    evaluate (R := R) id z = ∑ j ∈ Finset.range (d + 1), coefficientAt A id j * z ^ (d - j) := by
  obtain ⟨low, high⟩ := degree_eq_iff.mp h
  have count : id.toNat.log2 = d + 1 := by
    have := Nat.two_pow_pos (d + 1)
    exact (Nat.log2_eq_iff (by omega)).mpr ⟨low, high⟩
  rw [evaluate, count, evaluateFrom_eq_sum adds, zero_mul, zero_add, Nat.add_sub_cancel]

end Values

/-! ## Words for signs -/

theorem coefficientAt_eq_one_iff {word : UInt32} {j : ℕ} :
    coefficientAt ℤ word j = 1 ↔ word.toNat.testBit j = true := by
  rw [coefficientAt]
  split
  · rename_i set
    simp [set]
  · rename_i clear
    simp [clear]

/-- A word of a degree is made of its highest bit and of those that are coefficients. -/
theorem toNat_eq_of_degree {id : UInt32} {d : ℕ} (h : degree id = d) :
    id.toNat = 2 ^ (d + 1) + Nat.ofBits fun j : Fin (d + 1) => id.toNat.testBit j := by
  obtain ⟨low, high⟩ := degree_eq_iff.mp h
  rw [pow_succ] at high
  rw [Nat.ofBits_testBit, Nat.mod_eq_sub_mod low, Nat.mod_eq_of_lt (by omega)]
  omega

/-- There is a word of each degree below thirty-one for any coefficients. -/
theorem exists_word {d : ℕ} (h : d ≤ 30) (bits : Fin (d + 1) → Bool) :
    ∃ id : UInt32, degree id = d ∧ ∀ j : Fin (d + 1), id.toNat.testBit j = bits j := by
  have below := Nat.ofBits_lt_two_pow bits
  have room : 2 ^ (d + 2) ≤ 2 ^ 32 := Nat.pow_le_pow_right (by decide) (by omega)
  have double : 2 ^ (d + 2) = 2 ^ (d + 1) * 2 := pow_succ 2 (d + 1)
  have word : (UInt32.ofNat (2 ^ (d + 1) + Nat.ofBits bits)).toNat = 2 ^ (d + 1) + Nat.ofBits bits :=
    UInt32.toNat_ofNat_of_lt' (by
      show _ < 2 ^ 32
      omega)
  refine ⟨.ofNat (2 ^ (d + 1) + Nat.ofBits bits), ?_, fun j => ?_⟩
  · rw [degree_eq_iff, word]
    omega
  · rw [word, Nat.testBit_two_pow_add_gt j.isLt, Nat.testBit_ofBits_lt]

/-- The words of a degree are the choices of signs for its powers. -/
theorem bijOn_coefficientAt {d : ℕ} (h : d ≤ 30) :
    Set.BijOn (fun (id : UInt32) (j : Fin (d + 1)) => coefficientAt ℤ id j)
      {id | degree id = d} {s | ∀ j, s j = 1 ∨ s j = -1} := by
  refine ⟨fun id _ j => coefficientAt_eq id j, ?_, ?_⟩
  · intro id hid id' hid' same
    have bits : ∀ j : Fin (d + 1), id.toNat.testBit j = id'.toNat.testBit j := by
      intro j
      have sign : coefficientAt ℤ id j = coefficientAt ℤ id' j := congrFun same j
      rw [Bool.eq_iff_iff, ← coefficientAt_eq_one_iff, ← coefficientAt_eq_one_iff, sign]
    rw [← UInt32.toNat_inj, toNat_eq_of_degree hid, toNat_eq_of_degree hid', funext bits]
  · intro s signs
    obtain ⟨id, hid, bits⟩ := exists_word h fun j => decide (s j = 1)
    refine ⟨id, hid, funext fun j => ?_⟩
    show coefficientAt ℤ id j = s j
    rw [coefficientAt, bits j]
    rcases signs j with plus | minus
    · simp [plus]
    · simp [minus]

/-! ## Decoding -/

/-- A word from two on has two more bits than its degree says, which is thirty less than its leading zeros,
and in every commutative ring it has the value of the polynomial with bit `j` for the coefficient of the
power `d - j`. The words of a degree up to thirty have every choice of coefficients exactly once. -/
theorem evaluate_decodes :
    (∀ id : UInt32, 2 ≤ id → ∃ d : ℕ, degree id = d ∧ id.toNat.size = d + 2 ∧
      degree id = 30 - (id.toBitVec.clz.toNat : ℤ) ∧
      ∀ (A : Type) [CommRing A] (z : A),
        evaluate (R := A) id z = ∑ j ∈ Finset.range (d + 1), coefficientAt A id j * z ^ (d - j)) ∧
    ∀ d ≤ 30, Set.BijOn (fun (id : UInt32) (j : Fin (d + 1)) => coefficientAt ℤ id j)
      {id | degree id = d} {s | ∀ j, s j = 1 ∨ s j = -1} := by
  refine ⟨fun id hid => ?_, fun d => bijOn_coefficientAt⟩
  obtain ⟨d, hd⟩ := exists_degree_eq hid
  refine ⟨d, hd, size_eq_of_degree hd, degree_eq_of_clz hid, fun A _ z => ?_⟩
  have adds : ∀ a x : A, a + x = a + RingHom.id A x := fun _ _ => rfl
  exact evaluate_eq_sum adds hd z

/-- The word for `z ^ 2 - z + 1`, and the words of the highest degree. -/
theorem evaluate_decodes_quadratic :
    (2 : UInt32) ≤ 13 ∧ (13 : UInt32).toNat.size = 4 ∧
      (∀ (A : Type) [CommRing A] (z : A), evaluate (R := A) 13 z = z ^ 2 - z + 1) ∧
      30 ≤ 30 ∧ Set.BijOn (fun (id : UInt32) (j : Fin 31) => coefficientAt ℤ id j)
        {id | degree id = 30} {s | ∀ j, s j = 1 ∨ s j = -1} := by
  have atLeast : (2 : UInt32) ≤ 13 := by decide
  obtain ⟨d, hd, size, -, value⟩ := evaluate_decodes.1 13 atLeast
  obtain rfl : d = 2 := by
    have : degree 13 = 2 := by decide
    omega
  refine ⟨atLeast, size, fun A _ z => ?_, le_rfl, evaluate_decodes.2 30 le_rfl⟩
  have lead : coefficientAt A 13 0 = 1 := if_pos (by decide)
  have linear : coefficientAt A 13 1 = -1 := if_neg (by decide)
  have constant : coefficientAt A 13 2 = 1 := if_pos (by decide)
  rw [value, Finset.sum_range_succ, Finset.sum_range_succ, Finset.sum_range_one, lead, linear, constant]
  ring

end Argand.Littlewood
