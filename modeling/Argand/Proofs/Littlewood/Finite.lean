import Mathlib.Data.List.Iterate
import Argand.Proofs.Littlewood.Blocks

/-!
# Tables stay finite

One estimate that is no point would spoil all others of its polynomial in the next pass. But a refinement
that ends nowhere is dropped (`isFinite_refine`), so a table of points stays one, and slots that are not in
use hold what they held at first (`refine_of_idle`). Nothing is asked of the arithmetic : quotients by zero
and sums may be whatever they like.

`Tracker.Keeps` says both of a tracker and a later one. A pass carries it on (`Tracker.Keeps.advance`), with
whatever step, and so does a run (`Tracker.Keeps.advanceBy`), of which the passes that a tracker makes of its
own are a case (`Tracker.iterate_advance_eq`).
-/

namespace Argand.Littlewood

/-! ## Refinements -/

section Refinements

variable {A R : Type} [Zero A] [One A] [Mul A] [Sub A] [Div A] [HAdd A R A] [HMul A R A] [One R] [Neg R]
  [FinitePoint A] {read : ℕ → A}

/-- A slot that is not in use comes out as it is. -/
theorem refine_of_idle (s : Shape) (step : R) {id k : ℕ} (hk : k < s.maxDegree)
    (idle : degree id.toUInt32 ≤ k) : refine s read (s.address id k) step = read (s.address id k) := by
  rw [refine, s.split_address hk]
  exact if_pos (Int.toNat_le.mpr idle)

/-- What was finite is finite when it is refined. -/
theorem isFinite_refine (s : Shape) (step : R) {address : ℕ}
    (finite : FinitePoint.isFinite (read address) = true) :
    FinitePoint.isFinite (refine s read address step) = true := by
  rw [refine]
  dsimp only
  split
  · exact finite
  · split
    · assumption
    · exact finite

end Refinements

/-! ## Passes -/

namespace Tracker

variable {R : Type} [Zero R] [LT R] [Finiteness R]

/-- A later tracker has a full table of points, in which the slots that are not in use are as they were. -/
structure Keeps (t t' : Tracker R) : Prop where
  shape_eq : t'.shape = t.shape
  size_eq : t'.table.size = t.shape.slots
  finite : ∀ z ∈ t'.table, FinitePoint.isFinite z = true
  idle : ∀ id < t.shape.polynomials, ∀ k < t.shape.maxDegree, degree id.toUInt32 ≤ k →
    t'.table[t.shape.address id k]? = t.table[t.shape.address id k]?

variable [One R] [Add R] [Sub R] [Mul R] [Div R] [Neg R] [OfScientific R]

theorem Keeps.advance {t t' : Tracker R} (h : Keeps t t') : Keeps t t'.advance where
  shape_eq := h.shape_eq
  size_eq := (Workers.size_map ..).trans h.size_eq
  finite := by
    intro z hz
    obtain ⟨address, present, rfl⟩ := Array.mem_iff_getElem.mp hz
    have inside : address < t'.table.size := by
      rwa [show t'.advance.table.size = t'.table.size from Workers.size_map ..] at present
    have refined := getElem?_table_advance t' inside
    rw [Array.getElem?_eq_getElem present, Option.some_inj] at refined
    rw [refined]
    apply isFinite_refine
    rw [Array.getD_eq_getD_getElem?, Array.getElem?_eq_getElem inside]
    exact h.finite _ (Array.getElem_mem inside)
  idle := by
    intro id hid k hk idle
    have present := t.shape.address_lt_slots hid hk
    rw [← h.size_eq] at present
    rw [getElem?_table_advance t' present, h.shape_eq, refine_of_idle t.shape _ hk idle,
      ← h.idle id hid k hk idle, Array.getD_eq_getD_getElem?, Array.getElem?_eq_getElem present,
      Option.getD_some]

/-- A tracker after passes with some steps, whatever steps it would have made of its own. -/
def advanceBy (t : Tracker R) (steps : List R) : Tracker R :=
  steps.foldl (fun t step => advance { t with step := step }) t

/-- The passes of a tracker are passes with steps that grow smaller. -/
theorem iterate_advance_eq (n : ℕ) : ∀ t : Tracker R,
    Tracker.advance^[n] t = t.advanceBy (List.iterate (· * (0.999 : R)) t.step n) := by
  induction n with
  | zero => exact fun t => rfl
  | succ n ih => exact fun t => ih t.advance

theorem Keeps.advanceBy {t : Tracker R} (steps : List R) :
    ∀ {t' : Tracker R}, Keeps t t' → Keeps t (t'.advanceBy steps) := by
  induction steps with
  | nil => exact fun h => h
  | cons step steps ih =>
    intro t' h
    have stepped : Keeps t { t' with step := step } := ⟨h.shape_eq, h.size_eq, h.finite, h.idle⟩
    exact ih stepped.advance

/-- The table before the last pass is kept behind. -/
theorem back_advanceBy_concat (t : Tracker R) (steps : List R) (step : R) :
    (t.advanceBy (steps ++ [step])).roots.back = (t.advanceBy steps).table := by
  rw [Tracker.advanceBy, List.foldl_append]
  rfl

/-- If a full table holds points, it does so after any passes with any steps, and so does the table behind
it, and every slot that is not in use holds what it held. Those passes that a tracker makes of its own are
among them. -/
theorem advanceBy_keeps (t : Tracker R) (full : t.table.size = t.shape.slots)
    (finite : ∀ z ∈ t.table, FinitePoint.isFinite z = true) :
    (∀ steps : List R, (t.advanceBy steps).table.size = t.shape.slots ∧
      (∀ z ∈ (t.advanceBy steps).table, FinitePoint.isFinite z = true) ∧
      (steps ≠ [] → ∀ z ∈ (t.advanceBy steps).roots.back, FinitePoint.isFinite z = true) ∧
      ∀ id < t.shape.polynomials, ∀ k < t.shape.maxDegree, degree id.toUInt32 ≤ k →
        ∃ z, t.table[t.shape.address id k]? = some z ∧
          (t.advanceBy steps).table[t.shape.address id k]? = some z) ∧
    ∀ n : ℕ, Tracker.advance^[n] t = t.advanceBy (List.iterate (· * (0.999 : R)) t.step n) := by
  have start : Keeps t t := ⟨rfl, full, finite, fun _ _ _ _ _ => rfl⟩
  refine ⟨fun steps => ?_, fun n => iterate_advance_eq n t⟩
  have later := start.advanceBy steps
  refine ⟨later.size_eq, later.finite, ?_, ?_⟩
  · intro some
    obtain ⟨before, last, rfl⟩ := (List.eq_nil_or_concat steps).resolve_left some
    rw [List.concat_eq_append, back_advanceBy_concat]
    exact (start.advanceBy before).finite
  · intro id hid k hk idle
    have present := t.shape.address_lt_slots hid hk
    rw [← full] at present
    exact ⟨_, Array.getElem?_eq_getElem present,
      (later.idle id hid k hk idle).trans (Array.getElem?_eq_getElem present)⟩

/-- All estimates coincide, so that every correction is a quotient by zero, and the steps are no numbers to
rely on either. -/
theorem advanceBy_keeps_coincident :
    let viewport : Viewport Float :=
      ⟨7, 4, 0, 5, by decide, by decide, by decide +kernel, by decide +kernel⟩
    let s : Shape := ⟨4, 16⟩
    let table : Array (Point Float) := .replicate s.slots ⟨0.25, 0.5⟩
    let t : Tracker Float := ⟨viewport, s, 42, ⟨table, table, false, rfl⟩, 1, 0, false, false, .ofNat 3⟩
    let steps : List Float := [1, 1e300, 0 / 0, -1]
    t.table.size = s.slots ∧ (∀ z ∈ t.table, FinitePoint.isFinite z = true) ∧ steps ≠ [] ∧
      13 < s.polynomials ∧ 3 < s.maxDegree ∧ degree (13 : ℕ).toUInt32 ≤ 3 ∧
      (∀ z ∈ (t.advanceBy steps).table, FinitePoint.isFinite z = true) ∧
      (∀ z ∈ (t.advanceBy steps).roots.back, FinitePoint.isFinite z = true) ∧
      ∃ z, t.table[s.address 13 3]? = some z ∧ (t.advanceBy steps).table[s.address 13 3]? = some z := by
  intro viewport s table t steps
  have full : t.table.size = s.slots := Array.size_replicate
  have finite : ∀ z ∈ t.table, FinitePoint.isFinite z = true := by
    intro z hz
    rw [Array.eq_of_mem_replicate hz]
    decide +kernel
  have idle : degree (13 : ℕ).toUInt32 ≤ 3 := by decide
  have some : steps ≠ [] := List.cons_ne_nil _ _
  obtain ⟨-, later, behind, kept⟩ := (advanceBy_keeps t full finite).1 steps
  exact ⟨full, finite, some, by decide, by decide, idle, later, behind some,
    kept 13 (by decide) 3 (by decide) idle⟩

end Tracker

end Argand.Littlewood
