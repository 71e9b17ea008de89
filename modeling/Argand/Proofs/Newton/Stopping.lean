import Mathlib.Data.Nat.Find
import Mathlib.Logic.Function.Iterate
import Mathlib.Order.Bounds.Defs
import Argand.Newton.Basins
import Argand.Proofs.Passes

/-!
# Where Newton's method stops

`newtonPoint f df start i` is the point after `i` corrections. A point is decisive if the correction there is no
number, or if the value and the correction there are both small (`Decisive`). The method takes points that are not
decisive one after the other (`polishFrom_of_not_decisive`), and stops at the first decisive one with the correction
there (`polishFrom_of_decisive`). So the first decisive point among those that it may try is the outcome, and if there
is none it is the point behind them (`polish_stops`). Nothing is asked of the arithmetic.
-/

namespace Argand

/-! ## Corrections -/

section Corrections

variable {R : Type} [Add R] [Sub R] [Mul R] [Div R]

/-- The correction at a point : the value of the function over the value of its derivative. -/
def correction (f df : Point R → Point R) (c : Point R) : Point R :=
  let n := (df c).re * (df c).re + (df c).im * (df c).im
  ⟨((f c).re * (df c).re + (f c).im * (df c).im) / n, ((f c).im * (df c).re - (f c).re * (df c).im) / n⟩

/-- The point after some corrections. -/
def newtonPoint (f df : Point R → Point R) (start : Point R) (i : ℕ) : Point R :=
  (fun c => c - correction f df c)^[i] start

variable {f df : Point R → Point R} {start : Point R}

theorem newtonPoint_succ (i : ℕ) : newtonPoint f df start (i + 1) =
    newtonPoint f df start i - correction f df (newtonPoint f df start i) :=
  Function.iterate_succ_apply' _ i start

end Corrections

/-- A double is not finite if it is no number or infinite. -/
theorem Double.isFinite_eq_false_iff (x : Float) : x.isFinite = false ↔ x.isNaN = true ∨ x.isInf = true := by
  show x.toModel.unpack.isFinite = false ↔ x.toModel.unpack.isNaN = true ∨ x.toModel.unpack.isInf = true
  cases x.toModel.unpack with
  | notANumber => exact ⟨fun _ => .inl rfl, fun _ => rfl⟩
  | infinity sign => exact ⟨fun _ => .inr rfl, fun _ => rfl⟩
  | zero sign | finite sign mantissa exponent positive =>
    exact (by decide : true = false ↔ false = true ∨ false = true)

section Polishing

variable {R : Type} [Add R] [Sub R] [Mul R] [Div R] [LT R] [DecidableLT R] [Finiteness R] [OfScientific R]
  [Elementary R]

/-- A point at which the method stops : the correction is no number, or the value and the correction are small. -/
def Decisive (f df : Point R → Point R) (c : Point R) : Prop :=
  FinitePoint.isFinite (correction f df c) = false ∨
    Modulus.modulus (f c) < (1e-2 : R) ∧ Modulus.modulus (correction f df c) < (1e-6 : R)

instance (f df : Point R → Point R) (c : Point R) : Decidable (Decisive f df c) :=
  inferInstanceAs (Decidable (_ ∨ _))

/-! ## One correction -/

section Steps

variable {f df : Point R → Point R} {c last : Point R} {i left : ℕ}

theorem polishFrom_succ : polishFrom f df i (left + 1) c last =
    if !FinitePoint.isFinite (correction f df c) then ⟨c, correction f df c, none⟩
    else if settled (f c) (correction f df c) then ⟨c, correction f df c, some i⟩
    else polishFrom f df (i + 1) left (c - correction f df c) (correction f df c) :=
  rfl

theorem decisive_iff : Decisive f df c ↔
    FinitePoint.isFinite (correction f df c) = false ∨ settled (f c) (correction f df c) = true := by
  rw [settled, Bool.and_eq_true, decide_eq_true_iff, decide_eq_true_iff]
  rfl

theorem polishFrom_of_decisive (h : Decisive f df c) : polishFrom f df i (left + 1) c last =
    ⟨c, correction f df c, if FinitePoint.isFinite (correction f df c) then some i else none⟩ := by
  rw [polishFrom_succ]
  cases finite : FinitePoint.isFinite (correction f df c) with
  | false => rfl
  | true =>
    have small := (decisive_iff.mp h).resolve_left (by rw [finite]; decide)
    rw [small]
    rfl

theorem polishFrom_of_not_decisive (h : ¬Decisive f df c) : polishFrom f df i (left + 1) c last =
    polishFrom f df (i + 1) left (c - correction f df c) (correction f df c) := by
  obtain ⟨finite, large⟩ := not_or.mp (mt decisive_iff.mpr h)
  rw [polishFrom_succ, Bool.of_not_eq_false finite, Bool.eq_false_iff.mpr large]
  rfl

/-- While no point is decisive, the corrections go on. -/
theorem polishFrom_add (m : ℕ) (h : ∀ k < m, ¬Decisive f df (newtonPoint f df c k)) :
    polishFrom f df i (m + left) c last = polishFrom f df (i + m) left (newtonPoint f df c m)
      (if m = 0 then last else correction f df (newtonPoint f df c (m - 1))) := by
  induction m generalizing left with
  | zero =>
    rw [Nat.zero_add]
    rfl
  | succ m ih =>
    -- all points but the last leave one more to be tried
    have before := @ih (left + 1) fun k hk => h k (by omega)
    rw [Nat.add_right_comm, Nat.add_assoc, before, polishFrom_of_not_decisive (h m (by omega)), ← newtonPoint_succ]
    rfl

end Steps

/-! ## All corrections -/

section Runs

variable [Zero R] {f df : Point R → Point R} {start : Point R}

/-- The first decisive point is the outcome, if it is tried. -/
theorem polish_of_first {j : ℕ} (tried : j < polishSteps) (first : Decisive f df (newtonPoint f df start j))
    (before : ∀ k < j, ¬Decisive f df (newtonPoint f df start k)) :
    polish f df start = ⟨newtonPoint f df start j, correction f df (newtonPoint f df start j),
      if FinitePoint.isFinite (correction f df (newtonPoint f df start j)) then some j else none⟩ := by
  obtain ⟨left, rest⟩ : ∃ left, polishSteps = j + (left + 1) := ⟨polishSteps - j - 1, by omega⟩
  rw [polish, rest, polishFrom_add j before, Nat.zero_add]
  exact polishFrom_of_decisive first

theorem polish_of_none (h : ∀ k < polishSteps, ¬Decisive f df (newtonPoint f df start k)) :
    polish f df start =
      ⟨newtonPoint f df start polishSteps, correction f df (newtonPoint f df start (polishSteps - 1)), none⟩ := by
  rw [polish, ← Nat.add_zero polishSteps, polishFrom_add polishSteps h]
  rfl

/-- Where the method ends well, the value and the correction are small. -/
theorem polish_settled {n : ℕ} (h : (polish f df start).steps = some n) :
    let basin := polish f df start
    basin.step = correction f df basin.root ∧ FinitePoint.isFinite basin.step = true ∧
      Modulus.modulus (f basin.root) < (1e-2 : R) ∧ Modulus.modulus basin.step < (1e-6 : R) := by
  classical
  intro basin
  by_cases some : ∃ j, j < polishSteps ∧ Decisive f df (newtonPoint f df start j)
  · obtain ⟨tried, first⟩ := Nat.find_spec some
    have outcome := polish_of_first tried first fun k hk decisive =>
      Nat.find_min some hk ⟨Nat.lt_trans hk tried, decisive⟩
    rw [outcome] at h
    cases finite : FinitePoint.isFinite (correction f df (newtonPoint f df start (Nat.find some))) with
    | false =>
      rw [finite] at h
      cases h
    | true =>
      have small := first.resolve_left (by rw [finite]; decide)
      have here : basin = _ := outcome
      rw [here]
      exact ⟨rfl, finite, small⟩
  · have outcome := polish_of_none fun k hk decisive => some ⟨k, hk, decisive⟩
    rw [outcome] at h
    cases h

end Runs

/-- The first decisive point of a hundred is the root, with the correction there, and the method ends well if that is
finite. If none is decisive, the root is the point behind them, with the correction that led there. A double is not
finite if it is no number or infinite. So every basin of an engine that counts corrections has a small value and a
small finite correction at its root. -/
theorem polish_stops [Zero R] [Neg R] [NatCast R] (f df : Point R → Point R) (start : Point R) :
    (∀ j, IsLeast {i | i < 100 ∧ Decisive f df (newtonPoint f df start i)} j →
      polish f df start = ⟨newtonPoint f df start j, correction f df (newtonPoint f df start j),
        if FinitePoint.isFinite (correction f df (newtonPoint f df start j)) then some j else none⟩) ∧
    ((∀ i < 100, ¬Decisive f df (newtonPoint f df start i)) →
      polish f df start = ⟨newtonPoint f df start 100, correction f df (newtonPoint f df start 99), none⟩) ∧
    (∀ q : Point Float, FinitePoint.isFinite q = false ↔
      (q.re.isNaN = true ∨ q.re.isInf = true) ∨ q.im.isNaN = true ∨ q.im.isInf = true) ∧
    ∀ (b : NewtonBasins R), ∀ basin ∈ b.basins, ∀ n, basin.steps = some n →
      basin.step = correction (b.f.1.map b.f.2) (b.df.1.map b.df.2) basin.root ∧
      FinitePoint.isFinite basin.step = true ∧
      Modulus.modulus (b.f.1.map b.f.2 basin.root) < (1e-2 : R) ∧ Modulus.modulus basin.step < (1e-6 : R) := by
  refine ⟨fun j ⟨⟨tried, first⟩, least⟩ => ?_, polish_of_none, fun q => ?_, fun b basin hbasin n ended => ?_⟩
  · exact polish_of_first tried first fun k hk decisive =>
      Nat.not_le_of_lt hk (least ⟨Nat.lt_trans hk tried, decisive⟩)
  · rw [← Double.isFinite_eq_false_iff, ← Double.isFinite_eq_false_iff]
    exact Bool.and_eq_false_iff
  · rw [← Array.mem_toList_iff, NewtonBasins.basins, Workers.toList_map] at hbasin
    obtain ⟨offset, -, rfl⟩ := List.mem_map.mp hbasin
    exact polish_settled ended

end Polishing

/-- A derivative that is a little too small takes one correction from three to where two is found, by itself and as
the only pixel of an engine. A value and a derivative that are one everywhere lead on for a hundred corrections, and a
derivative that is zero ends the method at once. -/
theorem polish_stops_doubles :
    let f : Point Float → Point Float := fun z => z - ⟨2, 0⟩
    let df : Point Float → Point Float := fun _ => ⟨1 - 1 / 1048576, 0⟩
    let b : NewtonBasins Float :=
      { viewport := ⟨1, 1, ⟨3, 0⟩, 9, by decide, by decide, by decide +kernel, by decide +kernel⟩
        f := ⟨⟨"f", ["z"], .binary .subtract (.variable ⟨0, Nat.one_pos⟩) (.literal 2)⟩, rfl⟩
        df := ⟨⟨"df", ["z"], .literal (1 - 1 / 1048576)⟩, rfl⟩
        smooth := false, marks := false, axes := false, workers := .ofNat 1 }
    polish f df ⟨3, 0⟩ = ⟨newtonPoint f df ⟨3, 0⟩ 1, correction f df (newtonPoint f df ⟨3, 0⟩ 1), some 1⟩ ∧
      polish (fun _ => 1) (fun _ => 1) (0 : Point Float) = ⟨⟨-100, 0⟩, ⟨1, 0⟩, none⟩ ∧
      (polish (fun _ => 1) (fun _ => 0) (0 : Point Float)).steps = none ∧
      ∃ basin ∈ b.basins, basin.steps = some 1 ∧ Modulus.modulus (basin.root - ⟨2, 0⟩) < (1e-2 : Float) ∧
        Modulus.modulus basin.step < (1e-6 : Float) := by
  intro f df b
  have first : IsLeast {i | i < 100 ∧ Decisive f df (newtonPoint f df ⟨3, 0⟩ i)} 1 := by
    refine ⟨⟨by decide, by decide +kernel⟩, fun i ⟨_, decisive⟩ => ?_⟩
    cases i with
    | zero => exact absurd decisive (by decide +kernel)
    | succ i => exact Nat.le_add_left 1 i
  have never (i : ℕ) (_ : i < 100) : ¬Decisive (fun _ => 1) (fun _ => 1)
      (newtonPoint (fun _ => 1) (fun _ => 1) (0 : Point Float) i) :=
    (by decide +kernel : ¬Decisive (fun _ => 1) (fun _ => 1) (0 : Point Float))
  have failing : IsLeast {i | i < 100 ∧ Decisive (fun _ => 1) (fun _ => 0)
      (newtonPoint (fun _ => 1) (fun _ => 0) (0 : Point Float) i)} 0 :=
    ⟨⟨by decide, by decide +kernel⟩, fun i _ => Nat.zero_le i⟩
  obtain ⟨stops, -, -, ends⟩ := polish_stops f df ⟨3, 0⟩
  have outcome := stops 1 first
  refine ⟨?_, ?_, ?_, ?_⟩
  · rw [outcome]
    decide +kernel
  · rw [(polish_stops _ _ (0 : Point Float)).2.1 never]
    decide +kernel
  · rw [(polish_stops _ _ (0 : Point Float)).1 0 failing]
    decide +kernel
  · have pixel : polish f df ⟨3, 0⟩ ∈ b.basins := by
      have middle : b.viewport.pointAtOffset 0 = ⟨3, 0⟩ := by decide +kernel
      rw [← Array.mem_toList_iff, NewtonBasins.basins, Workers.toList_map]
      exact List.mem_map.mpr ⟨0, List.mem_range.mpr (by decide), by rw [middle]; rfl⟩
    obtain ⟨-, -, value, step⟩ := ends b _ pixel 1 (by rw [outcome]; decide +kernel)
    exact ⟨_, pixel, by rw [outcome]; decide +kernel, value, step⟩

end Argand
