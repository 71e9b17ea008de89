import Argand.Proofs.Outcome
import Argand.Viewport

/-!
# Viewports that exist, and their pixels

There is a viewport unless its rectangle has no pixels or its extent is not a positive number
(`Viewport.new?_eq_error`). So a viewport can be moved to every other rectangle with pixels and to every
other window of such an extent. Its pixels are counted row by row (`Viewport.pixelAt_offset`).
-/

namespace Argand.Viewport

variable {R : Type} [Zero R] [LT R] [Finiteness R]

section Moves

variable [DecidableLT R] {width height : Nat} {center : Point R} {zoom : R} {e : ViewError R}

theorem new?_eq_error :
    new? width height center zoom = .error e ↔
      (width = 0 ∨ height = 0) ∧ e = .emptyViewport width height ∨
        (0 < width ∧ 0 < height) ∧ ¬(Finiteness.isFinite zoom = true ∧ 0 < zoom) ∧ e = .badZoom zoom := by
  rw [new?]
  by_cases sides : 0 < width ∧ 0 < height
  · have present : ¬(width = 0 ∨ height = 0) := by omega
    rw [dif_pos sides]
    by_cases extent : Finiteness.isFinite zoom = true ∧ 0 < zoom
    · simp [extent, present]
    · rw [dif_neg extent, Except.error.injEq, eq_comm]
      simp [extent, present, sides]
  · have absent : width = 0 ∨ height = 0 := by omega
    rw [dif_neg sides, Except.error.injEq, eq_comm]
    simp [sides, absent]

theorem resize_eq_error (v : Viewport R) :
    v.resize width height = .error e ↔
      (width = 0 ∨ height = 0) ∧ e = .emptyViewport width height := by
  have extent : Finiteness.isFinite v.zoom = true ∧ 0 < v.zoom := ⟨v.zoom_finite, v.zoom_pos⟩
  simp [resize, new?_eq_error, extent]

theorem setView_eq_error (v : Viewport R) :
    v.setView center zoom = .error e ↔
      ¬(Finiteness.isFinite zoom = true ∧ 0 < zoom) ∧ e = .badZoom zoom := by
  have sides : 0 < v.width ∧ 0 < v.height := ⟨v.width_pos, v.height_pos⟩
  have present : ¬(v.width = 0 ∨ v.height = 0) := by omega
  simp [setView, new?_eq_error, sides, present]

theorem isOk_resize (v : Viewport R) : (v.resize width height).isOk = (0 < width && 0 < height) := by
  rw [isOk_eq_not (p := width = 0 ∨ height = 0) (by simp [resize_eq_error])]
  simp [Nat.pos_iff_ne_zero]

theorem isOk_setView (v : Viewport R) :
    (v.setView center zoom).isOk = (Finiteness.isFinite zoom && 0 < zoom) := by
  rw [isOk_eq_not (p := ¬(Finiteness.isFinite zoom = true ∧ 0 < zoom)) (by simp [setView_eq_error])]
  simp

end Moves

/-! ## Pixels -/

variable (v : Viewport R) {x y : Nat}

theorem offset_lt (hx : x < v.width) (hy : y < v.height) : y * v.width + x < v.size :=
  calc y * v.width + x < y * v.width + v.width := by omega
    _ = (y + 1) * v.width := (Nat.succ_mul ..).symm
    _ ≤ v.height * v.width := Nat.mul_le_mul_right _ hy
    _ = v.width * v.height := Nat.mul_comm ..

theorem pixelAt_inside {offset : Nat} (h : offset < v.size) :
    (v.pixelAt offset).column < v.width ∧ (v.pixelAt offset).row < v.height :=
  ⟨Nat.mod_lt _ v.width_pos, Nat.div_lt_of_lt_mul h⟩

theorem offset_pixelAt (offset : Nat) : (v.pixelAt offset).row * v.width + (v.pixelAt offset).column = offset :=
  Nat.div_add_mod' offset v.width

theorem pixelAt_offset (hx : x < v.width) : v.pixelAt (y * v.width + x) = ⟨x, y⟩ := by
  rw [pixelAt, Nat.mul_comm, Nat.mul_add_mod, Nat.mod_eq_of_lt hx, Nat.mul_add_div v.width_pos,
    Nat.div_eq_of_lt hx, Nat.add_zero]

end Argand.Viewport
