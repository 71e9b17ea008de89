import Mathlib.Algebra.Group.Int.Defs
import Mathlib.Algebra.Group.Nat.Defs
import Argand.Overflow

/-!
# Exact results

An operation that can overflow has a result exactly if the exact number has room, and that number is the result
(`Signed.sub?_eq_some`, `Word.add?_eq_some` and so on). So what the bits are is told by a number, and that there is a
result by the bounds of the bits.
-/

namespace Argand

/-! ## Thirty-two bits with a sign -/

namespace Signed

variable {a b c : Int32}

theorem narrow?_eq_some {n : Int64} : narrow? n = some c ↔ c.toInt = n.toInt := by
  have word : n.toInt32.toInt64 = n ∧ n.toInt32 = c ↔ c.toInt64 = n := by
    constructor
    · rintro ⟨same, rfl⟩
      exact same
    · rintro rfl
      exact ⟨congrArg Int32.toInt64 c.toInt32_toInt64, c.toInt32_toInt64⟩
  rw [narrow?, Option.ite_none_right_eq_some, Option.some_inj, word, ← Int64.toInt_inj, Int32.toInt_toInt64]

/-- In sixty-four bits nothing is lost. -/
theorem bmod_eq {n : ℤ} (low : -2 ^ 32 ≤ n) (high : n ≤ 2 ^ 32) : n.bmod (2 ^ 64) = n :=
  Int.bmod_eq_of_le (by omega) (by omega)

theorem add?_eq_some : add? a b = some c ↔ c.toInt = a.toInt + b.toInt := by
  have := And.intro a.le_toInt a.toInt_lt
  have := And.intro b.le_toInt b.toInt_lt
  rw [add?, narrow?_eq_some, Int64.toInt_add, Int32.toInt_toInt64, Int32.toInt_toInt64,
    bmod_eq (by omega) (by omega)]

theorem sub?_eq_some : sub? a b = some c ↔ c.toInt = a.toInt - b.toInt := by
  have := And.intro a.le_toInt a.toInt_lt
  have := And.intro b.le_toInt b.toInt_lt
  rw [sub?, narrow?_eq_some, Int64.toInt_sub, Int32.toInt_toInt64, Int32.toInt_toInt64,
    bmod_eq (by omega) (by omega)]

theorem neg?_eq_some : neg? a = some c ↔ c.toInt = -a.toInt := by
  have := And.intro a.le_toInt a.toInt_lt
  rw [neg?, narrow?_eq_some, Int64.toInt_neg, Int32.toInt_toInt64, bmod_eq (by omega) (by omega)]

/-- A number between the bounds is that of some bits. -/
theorem exists_toInt_eq {n : ℤ} (low : -2 ^ 31 ≤ n) (high : n < 2 ^ 31) : ∃ c : Int32, c.toInt = n :=
  ⟨.ofInt n, Int32.toInt_ofInt_of_le low high⟩

end Signed

/-! ## Sixty-four bits without a sign -/

namespace Word

variable {a b c : UInt64} {n : ℕ}

theorem ofNat?_eq_some : ofNat? n = some c ↔ c.toNat = n := by
  rw [ofNat?, Option.ite_none_right_eq_some, Option.some_inj]
  constructor
  · rintro ⟨room, rfl⟩
    exact UInt64.toNat_ofNat_of_lt' room
  · rintro rfl
    exact ⟨c.toNat_lt, c.ofNat_toNat⟩

theorem add?_eq_some : add? a b = some c ↔ c.toNat = a.toNat + b.toNat :=
  ofNat?_eq_some

theorem mul?_eq_some : mul? a b = some c ↔ c.toNat = a.toNat * b.toNat :=
  ofNat?_eq_some

theorem sub?_eq_some : sub? a b = some c ↔ c.toNat + b.toNat = a.toNat := by
  rw [sub?, Option.ite_none_right_eq_some, Option.some_inj, UInt64.le_iff_toNat_le, ← UInt64.toNat_inj]
  constructor
  · rintro ⟨below, difference⟩
    rw [← difference, UInt64.toNat_sub_of_le _ _ (UInt64.le_iff_toNat_le.mpr below)]
    exact Nat.sub_add_cancel below
  · intro sum
    have below : b.toNat ≤ a.toNat := by omega
    rw [UInt64.toNat_sub_of_le _ _ (UInt64.le_iff_toNat_le.mpr below)]
    omega

theorem div?_eq_some (h : 0 < b.toNat) : div? a b = some (a / b) := by
  refine if_neg ?_
  rintro rfl
  exact absurd h (by decide)

theorem mod?_eq_some (h : 0 < b.toNat) : mod? a b = some (a % b) := by
  refine if_neg ?_
  rintro rfl
  exact absurd h (by decide)

/-- A bit is moved up to a power of two, as long as it is in the word. -/
theorem shiftLeft?_one_eq_some : shiftLeft? 1 a = some c ↔ c.toNat = 2 ^ a.toNat := by
  have power (short : a.toNat < 64) : ((1 : UInt64) <<< a).toNat = 2 ^ a.toNat := by
    rw [UInt64.toNat_shiftLeft, UInt64.toNat_one, Nat.mod_eq_of_lt short, Nat.one_shiftLeft]
    exact Nat.mod_eq_of_lt (Nat.pow_lt_pow_right (by decide) short)
  rw [shiftLeft?, Option.ite_none_right_eq_some, Option.some_inj, UInt64.lt_iff_toNat_lt]
  constructor
  · rintro ⟨short, rfl⟩
    exact power short
  · intro exact
    have short : a.toNat < 64 := (Nat.pow_lt_pow_iff_right (by decide)).mp (exact ▸ c.toNat_lt)
    exact ⟨short, UInt64.toNat_inj.mp ((power short).trans exact.symm)⟩

/-- A number below the bound is that of a word. -/
theorem exists_toNat_eq (h : n < 2 ^ 64) : ∃ c : UInt64, c.toNat = n :=
  ⟨.ofNat n, UInt64.toNat_ofNat_of_lt' h⟩

end Word

end Argand
