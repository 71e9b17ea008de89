import Mathlib.Data.Nat.Find
import Mathlib.Order.Bounds.Defs
import Argand.Proofs.Orbit.Resume

/-!
# Budgets of updates

A cell that is granted a budget in two portions is as good as one that is granted all of it, in the point and in
the counter, and neither fails if the counter has room. So a fresh cell can be granted what takes its orbit to the
first point outside the disk, and then the rest. The first update of the rest changes the sign of the counter, which
was that of an orbit inside until then (`Cell.resume?_start_of_first`), and the cell rests at that point. If there is
no such point before the budget ends, the cell has only counted down (`Cell.resume?_start_of_inside`). A point outside
that is reached by the very last update is not looked at : the next portion finds it.

Nothing is asked of the arithmetic.
-/

namespace Argand

variable {R : Type} [Add R] [Sub R] [Mul R] [LT R] [DecidableLT R] [OfScientific R]

/-- Where an orbit is after some updates. -/
def Point.orbit (c z : Point R) (n : Nat) : Point R :=
  (fun z => z * z + c)^[n] z

namespace Cell

variable {c z : Point R} {m n : Nat} {after : Cell R}

/-- A fresh cell whose orbit stays inside has counted all updates. -/
theorem resume?_start_of_inside (inside : ∀ k < n, (Point.orbit c z k).escaped = false) :
    (start z).resume? c n = some after ↔ after.point = Point.orbit c z n ∧ after.counter.toInt = -1 - n := by
  rw [resume?_of_moves rfl]
  exact run?_eq_some_of_inside n inside

/-- A fresh cell whose orbit comes to the first point outside before the budget ends rests there, and shows how many
updates that took. -/
theorem resume?_start_of_first (room : n < 2 ^ 31) (before : m < n)
    (first : IsLeast {k | (Point.orbit c z k).escaped = true} m) :
    ∃ after, (start z).resume? c n = some after ∧ after.point = Point.orbit c z m ∧ after.counter.toInt = m := by
  have inside : ∀ k < m, (Point.orbit c z k).escaped = false :=
    fun k hk => Bool.eq_false_iff.mpr fun out => Nat.not_le.mpr hk (first.2 out)
  obtain ⟨rest, rfl⟩ : ∃ rest, n = m + (rest + 1) := ⟨n - m - 1, by omega⟩
  obtain ⟨counter, down⟩ := Signed.exists_toInt_eq (n := -1 - m) (by omega) (by omega)
  obtain ⟨count, up⟩ := Signed.exists_toInt_eq (n := m) (by omega) (by omega)
  have moves : (⟨Point.orbit c z m, counter⟩ : Cell R).rests = false := by
    rw [rests_eq_false, down]
    omega
  have outside : (Point.orbit c z m).escaped = true := first.1
  have counted : counted? counter = some count := counted?_eq_some.mpr ⟨by omega, by omega⟩
  have found : (start z).resume? c m = some ⟨Point.orbit c z m, counter⟩ :=
    (resume?_start_of_inside inside).mpr ⟨rfl, down⟩
  refine ⟨⟨Point.orbit c z m, count⟩, ?_, rfl, up⟩
  calc (start z).resume? c (m + (rest + 1))
      = ((start z).resume? c m).bind (resume? c (rest + 1)) := (resume?_bind ..).symm
    _ = resume? c (rest + 1) ⟨Point.orbit c z m, counter⟩ := by rw [found, Option.bind_some]
    _ = some ⟨Point.orbit c z m, count⟩ := by
        rw [resume?_succ moves, if_pos outside, counted, Option.map_some]

/-- Budgets compose, for every cell that does not rest and whose counter has room for both. And a budget takes a fresh
cell to the first point outside the disk, with the index of that point, or if no update of the budget starts from such
a point, through all updates, with their number below minus one. -/
theorem resume?_composes (c : Point R) :
    (∀ (cell : Cell R) (a b : Nat), cell.counter < 0 → -2 ^ 31 ≤ cell.counter.toInt - a - b →
      ∃ after, (cell.resume? c a).bind (resume? c b) = some after ∧ cell.resume? c (a + b) = some after) ∧
    ∀ (z : Point R) (n : Nat), n < 2 ^ 31 → ∃ after, (start z).resume? c n = some after ∧
      ((∃ m < n, IsLeast {k | (Point.orbit c z k).escaped = true} m ∧
        after.point = Point.orbit c z m ∧ after.counter.toInt = m) ∨
      ((∀ k < n, (Point.orbit c z k).escaped = false) ∧
        after.point = Point.orbit c z n ∧ after.counter.toInt = -1 - n)) := by
  constructor
  · intro cell a b _ room
    obtain ⟨after, granted⟩ := exists_resume? c (a + b) cell (by omega)
    exact ⟨after, (resume?_bind c b a cell).trans granted, granted⟩
  · intro z n room
    by_cases out : ∃ m < n, (Point.orbit c z m).escaped = true
    · classical
      obtain ⟨m, before, escaped⟩ := out
      have some : ∃ k, (Point.orbit c z k).escaped = true := ⟨m, escaped⟩
      have least : IsLeast {k | (Point.orbit c z k).escaped = true} (Nat.find some) :=
        ⟨Nat.find_spec some, fun _ => Nat.find_min' some⟩
      have first : Nat.find some < n := Nat.lt_of_le_of_lt (least.2 escaped) before
      obtain ⟨after, granted, shown⟩ := resume?_start_of_first room first least
      exact ⟨after, granted, .inl ⟨_, first, least, shown⟩⟩
    · have inside : ∀ k < n, (Point.orbit c z k).escaped = false :=
        fun k hk => Bool.eq_false_iff.mpr fun escaped => out ⟨k, hk, escaped⟩
      obtain ⟨counter, down⟩ := Signed.exists_toInt_eq (n := -1 - n) (by omega) (by omega)
      have granted : (start z).resume? c n = some ⟨Point.orbit c z n, counter⟩ :=
        (resume?_start_of_inside inside).mpr ⟨rfl, down⟩
      exact ⟨_, granted, .inr ⟨inside, rfl, down⟩⟩

/-- The orbit of a half leaves the disk with its fourth update. Four updates do not show that, a fifth one does, in
whatever portions they are granted. -/
theorem resume?_composes_half : let c : Point Float := ⟨0.5, 0⟩
    (start c).counter < 0 ∧ -2 ^ 31 ≤ (start c).counter.toInt - (4 : Nat) - (1 : Nat) ∧
      ∃ before after, (start c).resume? c 4 = some before ∧ before.counter.toInt = -5 ∧
        before.resume? c 1 = some after ∧ (start c).resume? c 5 = some after ∧
        after.point = Point.orbit c c 4 ∧ after.counter.toInt = 4 := by
  intro c
  obtain ⟨portions, budget⟩ := resume?_composes c
  have inside : ∀ k < 4, (Point.orbit c c k).escaped = false := by decide +kernel
  have outside : (Point.orbit c c 4).escaped = true := by decide +kernel
  obtain ⟨before, four, shown⟩ := budget c 4 (by decide)
  obtain ⟨after, five, shown'⟩ := budget c 5 (by decide)
  obtain ⟨after', split, whole⟩ := portions (start c) 4 1 (by decide) (by decide)
  rw [four, Option.bind_some] at split
  obtain rfl : after = after' := Option.some.inj (five.symm.trans whole)
  refine ⟨by decide, by decide, before, after, four, ?_, split, five, ?_⟩
  · rcases shown with ⟨m, early, first, -⟩ | ⟨-, -, count⟩
    · exact absurd first.1 (Bool.eq_false_iff.mp (inside m early))
    · exact count
  · rcases shown' with ⟨m, -, first, point, count⟩ | ⟨all, -⟩
    · have four : m = 4 := by
        refine Nat.le_antisymm (first.2 outside) (Nat.le_of_not_lt fun early => ?_)
        exact absurd first.1 (Bool.eq_false_iff.mp (inside m early))
      rw [four] at point count
      exact ⟨point, count⟩
    · exact absurd outside (Bool.eq_false_iff.mp (all 4 (by decide)))

end Cell

end Argand
