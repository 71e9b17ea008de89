import Mathlib.Logic.Function.Iterate
import Argand.Orbit.Progressive
import Argand.Proofs.Overflow

/-!
# Updates in portions

A cell that is granted updates in two portions comes as far as one that is granted all of them at once
(`Cell.resume?_bind`). A cell that rests after the first portion is passed over in the second; one that
does not has only counted down so far. If the counter runs out in one of the portions, then it does so in both of
them together, too. It does not as long as it has room for all of the updates (`Cell.exists_resume?`).

On an orbit that is inside the disk there is no other reason to fail, and the counter is the exact count
(`Cell.run?_eq_some_of_inside`).
-/

namespace Argand.Cell

/-! ## Counters -/

/-- The least number is not counted, as there is no number to negate it to. -/
theorem counted?_eq_some {counter count : Int32} :
    counted? counter = some count ↔ -2 ^ 31 < counter.toInt ∧ count.toInt = -counter.toInt - 1 := by
  have one : (1 : Int32).toInt = 1 := rfl
  refine Option.bind_eq_some_iff.trans ⟨?_, fun ⟨low, exact⟩ => ?_⟩
  · rintro ⟨negated, negation, difference⟩
    have negation := Signed.neg?_eq_some.mp negation
    have difference := Signed.sub?_eq_some.mp difference
    have below := negated.toInt_lt
    omega
  · have below := counter.toInt_lt
    obtain ⟨negated, negation⟩ := Signed.exists_toInt_eq (n := -counter.toInt) (by omega) (by omega)
    exact ⟨negated, Signed.neg?_eq_some.mpr negation, Signed.sub?_eq_some.mpr (by omega)⟩

variable {R : Type}

theorem rests_eq_true {cell : Cell R} : cell.rests = true ↔ 0 ≤ cell.counter.toInt := by
  rw [rests, decide_eq_true_iff, Int32.le_iff_toInt_le, Int32.toInt_zero]

theorem rests_eq_false {cell : Cell R} : cell.rests = false ↔ cell.counter.toInt < 0 := by
  rw [← Bool.not_eq_true, rests_eq_true]
  omega

/-- A cell that is found outside rests. -/
theorem rests_of_counted? {z : Point R} {counter count : Int32} (negative : counter.toInt < 0)
    (h : counted? counter = some count) : (⟨z, count⟩ : Cell R).rests = true := by
  obtain ⟨-, exact⟩ := counted?_eq_some.mp h
  rw [rests_eq_true, exact]
  omega

/-! ## Portions -/

variable [Add R] [Sub R] [Mul R] [LT R] [DecidableLT R] [OfScientific R]

theorem resume?_of_rests {cell : Cell R} (h : cell.rests = true) (c : Point R) (n : Nat) :
    cell.resume? c n = some cell := by
  rw [resume?, if_pos h]

theorem resume?_of_moves {cell : Cell R} (h : cell.rests = false) (c : Point R) (n : Nat) :
    cell.resume? c n = cell.run? c n := by
  rw [resume?, if_neg (by rw [h]; decide)]

@[simp] theorem resume?_zero (cell : Cell R) (c : Point R) : cell.resume? c 0 = some cell := by
  rw [resume?, run?_zero, ite_self]

/-- An update of a cell that moves, and those that come after it. -/
theorem resume?_succ {cell : Cell R} (h : cell.rests = false) (c : Point R) (n : Nat) :
    cell.resume? c (n + 1) =
      if cell.point.escaped then (counted? cell.counter).map fun count => ⟨cell.point, count⟩
      else
        (Signed.sub? cell.counter 1).bind fun counter =>
          resume? c n ⟨cell.point * cell.point + c, counter⟩ := by
  rw [resume?_of_moves h, run?_succ]
  split
  · rfl
  · refine Option.bind_congr fun counter down => ?_
    have negative := rests_eq_false.mp h
    have one : (1 : Int32).toInt = 1 := rfl
    rw [resume?_of_moves (rests_eq_false.mpr _)]
    rw [Signed.sub?_eq_some.mp down]
    omega

/-- Two portions of updates are as good as one. -/
theorem resume?_bind (c : Point R) (n : Nat) : ∀ (m : Nat) (cell : Cell R),
    (cell.resume? c m).bind (resume? c n) = cell.resume? c (m + n)
  | 0, cell => by
    rw [resume?_zero, Nat.zero_add, Option.bind_some]
  | m + 1, cell => by
    cases moves : cell.rests with
    | true => rw [resume?_of_rests moves, resume?_of_rests moves, Option.bind_some, resume?_of_rests moves]
    | false =>
      rw [Nat.add_right_comm, resume?_succ moves, resume?_succ moves]
      by_cases out : cell.point.escaped = true
      · rw [if_pos out, if_pos out]
        cases found : counted? cell.counter with
        | none => rfl
        | some count => exact resume?_of_rests (rests_of_counted? (rests_eq_false.mp moves) found) c n
      · rw [if_neg out, if_neg out, Option.bind_assoc]
        exact Option.bind_congr fun counter _ => resume?_bind c n m _

/-- A cell whose counter has room for all updates can be granted them. -/
theorem exists_resume? (c : Point R) : ∀ (n : Nat) (cell : Cell R), -2 ^ 31 ≤ cell.counter.toInt - n →
    ∃ after, cell.resume? c n = some after
  | 0, cell, _ => ⟨cell, resume?_zero cell c⟩
  | n + 1, cell, room => by
    cases moves : cell.rests with
    | true => exact ⟨cell, resume?_of_rests moves c _⟩
    | false =>
      have negative := rests_eq_false.mp moves
      rw [resume?_succ moves]
      by_cases out : cell.point.escaped = true
      · obtain ⟨count, exact⟩ := Signed.exists_toInt_eq (n := -cell.counter.toInt - 1) (by omega) (by omega)
        rw [if_pos out, counted?_eq_some.mpr ⟨by omega, exact⟩]
        exact ⟨_, rfl⟩
      · obtain ⟨counter, exact⟩ := Signed.exists_toInt_eq (n := cell.counter.toInt - 1) (by omega) (by omega)
        have down : Signed.sub? cell.counter 1 = some counter := Signed.sub?_eq_some.mpr exact
        rw [if_neg out, down, Option.bind_some]
        exact exists_resume? c n ⟨_, counter⟩ (by rw [exact]; omega)

/-- A fresh cell has room for all updates but those that thirty-two bits cannot count. -/
theorem exists_resume?_start {c z : Point R} {n : Nat} (room : n < 2 ^ 31) :
    ∃ after, (start z).resume? c n = some after := by
  have fresh : (start z).counter.toInt = -1 := rfl
  exact exists_resume? c n (start z) (by omega)

/-- As long as an orbit is inside the disk, every update takes it on and the counter down, if there is room. -/
theorem run?_eq_some_of_inside {c : Point R} {cell : Cell R} : ∀ (n : Nat) {z : Point R} {counter : Int32},
    (∀ k < n, ((fun z => z * z + c)^[k] z).escaped = false) →
      (run? c n ⟨z, counter⟩ = some cell ↔
        cell.point = (fun z => z * z + c)^[n] z ∧ cell.counter.toInt = counter.toInt - n)
  | 0, z, counter, _ => by
    rw [run?_zero, Option.some_inj, Int.natCast_zero, Int.sub_zero, Int32.toInt_inj]
    constructor
    · rintro rfl
      exact ⟨rfl, rfl⟩
    · rintro ⟨rfl, rfl⟩
      rfl
  | n + 1, z, counter, inside => by
    have here : ¬z.escaped = true := Bool.eq_false_iff.mp (inside 0 n.succ_pos)
    have later : ∀ k < n, ((fun z => z * z + c)^[k] (z * z + c)).escaped = false :=
      fun k hk => inside (k + 1) (Nat.succ_lt_succ hk)
    have one : (1 : Int32).toInt = 1 := rfl
    rw [run?_succ, if_neg here, Option.bind_eq_some_iff]
    constructor
    · rintro ⟨next, down, rest⟩
      obtain ⟨point, count⟩ := (run?_eq_some_of_inside n later).mp rest
      have down : next.toInt = counter.toInt - 1 := Signed.sub?_eq_some.mp down
      exact ⟨point, by omega⟩
    · rintro ⟨point, count⟩
      have low := cell.counter.le_toInt
      have high := counter.toInt_lt
      obtain ⟨next, exact⟩ := Signed.exists_toInt_eq (n := counter.toInt - 1) (by omega) (by omega)
      refine ⟨next, Signed.sub?_eq_some.mpr exact, (run?_eq_some_of_inside n later).mpr ⟨point, ?_⟩⟩
      rw [exact]
      omega

end Argand.Cell
