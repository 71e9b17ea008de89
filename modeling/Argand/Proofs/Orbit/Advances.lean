import Mathlib.Order.Bounds.Basic
import Argand.Proofs.Orbit.History

/-!
# The number of batches for a budget

`Progressive.advancesFor?` rounds a quotient up, and does so with thirty-two bits. The greatest number on the way to
the quotient is the budget with the updates of a batch on top, and there is a result exactly if that has room
(`Progressive.advancesFor?_eq_some`). The result is the least number of batches that grants the budget, and a fresh
engine has room for all of them (`Progressive.isLeast_advancesFor?`). For the few budgets above `greatestBudget` there
is such a number, too, but it is not found.
-/

namespace Argand.Progressive

theorem updatesPerAdvance_eq : updatesPerAdvance = 200 :=
  rfl

/-! ## Thirty-two bits -/

theorem toInt_updatesPerAdvance : (Int32.ofNat updatesPerAdvance).toInt = updatesPerAdvance := by
  decide

theorem toInt_max_zero (n : Int32) : (max n 0).toInt = max n.toInt 0 := by
  show (if n ≤ 0 then (0 : Int32) else n).toInt = _
  split
  · rename_i low
    exact (max_eq_right (Int32.le_iff_toInt_le.mp low)).symm
  · rename_i high
    exact (max_eq_left (not_le.mp (mt Int32.le_iff_toInt_le.mpr high)).le).symm

/-- A whole number that is not negative, as a word of sixty-four bits. -/
theorem toNat_toUInt64 {n : Int64} (h : 0 ≤ n.toInt) : (n.toUInt64.toNat : ℤ) = n.toInt := by
  have below : n.toBitVec.toInt < 2 ^ 64 := n.toInt_lt.trans (by decide)
  show (n.toBitVec.toNat : ℤ) = n.toBitVec.toInt
  have word : n.toBitVec.toNat = (n.toBitVec.toInt % 2 ^ 64).toNat := by
    conv_lhs => rw [← BitVec.ofInt_toInt (x := n.toBitVec), BitVec.toNat_ofInt]
    rfl
  rw [word]
  exact (Int.toNat_of_nonneg (Int.emod_nonneg _ (by decide))).trans (Int.emod_eq_of_lt h below)

/-- A quotient in thirty-two bits, taken as a number without a sign. -/
theorem toNat_quotient (dividend : Int32) (h : 0 ≤ dividend.toInt) :
    ((dividend / .ofNat updatesPerAdvance).toInt64.toUInt64.toNat : ℤ) = dividend.toInt / updatesPerAdvance := by
  have quotient : (dividend / .ofNat updatesPerAdvance).toInt64.toInt = dividend.toInt / updatesPerAdvance := by
    rw [Int32.toInt_toInt64, Int32.toInt_div_of_ne_right _ _ (by decide), toInt_updatesPerAdvance,
      Int.tdiv_eq_ediv_of_nonneg h]
  rw [toNat_toUInt64 (by rw [quotient]; exact Int.ediv_nonneg h (by decide)), quotient]

/-! ## The quotient -/

/-- The greatest budget for which a number of batches is found. -/
def greatestBudget : ℤ :=
  2 ^ 31 - 1 - updatesPerAdvance

theorem greatestBudget_eq : greatestBudget = 2147483447 :=
  rfl

/-- The quotient, rounded up, for a budget that has room for another batch. -/
theorem advancesFor?_eq_some {budget : Int32} {k : ℕ} :
    advancesFor? budget = some k ↔ budget.toInt ≤ greatestBudget ∧
      k = (max budget.toInt 0 + updatesPerAdvance - 1) / updatesPerAdvance := by
  have one : (1 : Int32).toInt = 1 := rfl
  have sum_iff (sum : Int32) : Signed.add? (max budget 0) (.ofNat updatesPerAdvance) = some sum ↔
      sum.toInt = max budget.toInt 0 + 200 := by
    rw [Signed.add?_eq_some, toInt_max_zero, toInt_updatesPerAdvance, updatesPerAdvance_eq]
    rfl
  rw [greatestBudget_eq, updatesPerAdvance_eq]
  refine Option.bind_eq_some_iff.trans ⟨?_, fun ⟨room, exact⟩ => ?_⟩
  · rintro ⟨sum, added, rest⟩
    obtain ⟨dividend, subtracted, divided⟩ := Option.bind_eq_some_iff.mp rest
    have added := (sum_iff sum).mp added
    have subtracted := Signed.sub?_eq_some.mp subtracted
    have quotient := toNat_quotient dividend (by omega)
    rw [updatesPerAdvance_eq, subtracted, added] at quotient
    have below := sum.toInt_lt
    exact ⟨by omega, Option.some.inj divided ▸ quotient⟩
  · obtain ⟨sum, added⟩ := Signed.exists_toInt_eq (n := max budget.toInt 0 + 200) (by omega) (by omega)
    obtain ⟨dividend, subtracted⟩ := Signed.exists_toInt_eq (n := max budget.toInt 0 + 200 - 1) (by omega) (by omega)
    refine ⟨sum, (sum_iff sum).mpr added, Option.bind_eq_some_iff.mpr
      ⟨dividend, Signed.sub?_eq_some.mpr (by omega), congrArg some ?_⟩⟩
    have quotient := toNat_quotient dividend (by omega)
    rw [updatesPerAdvance_eq, subtracted] at quotient
    exact_mod_cast quotient.trans exact.symm

/-- The least number of batches is the quotient, rounded up. -/
theorem isLeast_iff {budget : ℤ} {k : ℕ} : IsLeast {k : ℕ | budget ≤ updatesPerAdvance * k} k ↔
    k = (max budget 0 + updatesPerAdvance - 1) / updatesPerAdvance := by
  rw [IsLeast, mem_lowerBounds, updatesPerAdvance_eq]
  constructor
  · rintro ⟨enough, least⟩
    have enough : budget ≤ 200 * k := enough
    have rounded := least ((max budget 0 + 200 - 1) / 200).toNat (by show budget ≤ 200 * _; omega)
    omega
  · intro exact
    refine ⟨?_, fun j (hj : budget ≤ 200 * j) => ?_⟩
    · show budget ≤ 200 * k
      omega
    · omega

variable {R : Type} [Zero R] [LT R] [DecidableLT R] [Finiteness R] [Add R] [Sub R] [Mul R] [Div R] [NatCast R]
  [OfScientific R]

/-- For a budget that has room for another batch, and for no other, a number of batches is found, and it is the least
that grants the budget. A fresh engine can be given as many batches, and no fewer have granted it as many updates. -/
theorem isLeast_advancesFor? (viewport : Viewport R) (parameter : Option (Point R)) (workers : Workers)
    (budget : Int32) :
    (∀ k, advancesFor? budget = some k ↔
      budget.toInt ≤ greatestBudget ∧ IsLeast {k : ℕ | budget.toInt ≤ updatesPerAdvance * k} k) ∧
    (advancesFor? budget = none ↔ greatestBudget < budget.toInt) ∧
    ∀ k, advancesFor? budget = some k → IsLeast {j : ℕ | ∃ p : Progressive R,
      advanceBy? j (new viewport parameter workers) = some p ∧ budget.toInt ≤ p.executed} k := by
  have found (k : ℕ) : advancesFor? budget = some k ↔
      budget.toInt ≤ greatestBudget ∧ IsLeast {k : ℕ | budget.toInt ≤ updatesPerAdvance * k} k := by
    rw [advancesFor?_eq_some, isLeast_iff]
  refine ⟨found, ⟨fun missing => ?_, fun high => ?_⟩, fun k some => ?_⟩
  · by_contra low
    have quotient : advancesFor? budget = some _ := advancesFor?_eq_some.mpr ⟨not_lt.mp low,
      Int.toNat_of_nonneg (Int.ediv_nonneg (by rw [updatesPerAdvance_eq]; omega) (by decide))⟩
    rw [missing] at quotient
    cases quotient
  · cases outcome : advancesFor? budget with
    | none => rfl
    | some k => exact absurd ((found k).mp outcome).1 (not_le.mpr high)
  · have fresh := hasRun_new viewport parameter workers
    obtain ⟨low, enough, least⟩ := (found k).mp some
    have quotient := (advancesFor?_eq_some.mp some).2
    rw [greatestBudget_eq] at low
    rw [updatesPerAdvance_eq] at quotient
    obtain ⟨p, done⟩ := fresh.exists_advanceBy? (k := k) (by rw [updatesPerAdvance_eq]; omega)
    have executed {j : ℕ} {q : Progressive R} (h : advanceBy? j (new viewport parameter workers) = .some q) :
        (q.executed : ℤ) = updatesPerAdvance * j := by
      rw [(fresh.advanceBy? h).1.executed, Nat.zero_add, Int.natCast_mul]
    refine ⟨⟨p, done, (executed done).symm ▸ enough⟩, ?_⟩
    rintro j ⟨q, fewer, granted⟩
    rw [executed fewer] at granted
    exact least granted

/-- Enough batches grant the greatest number of thirty-two bits, but their number is not found. -/
theorem advancesFor?_eq_none_greatest :
    IsLeast {k : ℕ | (2147483647 : Int32).toInt ≤ updatesPerAdvance * k} 10737419 ∧
      advancesFor? 2147483647 = none :=
  ⟨isLeast_iff.mpr (by decide), by decide⟩

end Argand.Progressive
