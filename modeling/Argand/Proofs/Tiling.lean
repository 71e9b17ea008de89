import Argand.Proofs.Rounding
import Argand.Proofs.Viewport
import Mathlib.Tactic.FieldSimp
import Mathlib.Tactic.NormNum
import Mathlib.Tactic.Ring

/-!
# Pixels tile the view

A pixel has a cell in the plane, the square around its point whose side is the scale (`Viewport.InCell`), and the
viewport shows a rectangle (`Viewport.InView`). Of both, the left and the upper edges are part, and the others are
not. In exact arithmetic a point lies in a cell exactly if its place in fractions of pixels lies in the unit square
of the pixel (`inCell_iff`), since places are points on another scale. So the pixel that `Viewport.pixelOf?` finds
is the one whose cell holds the point (`pixelOf?_eq_some_iff`), and the cells tile the rectangle
(`Viewport.cells_tile`).

Sides have room in words of sixty-four bits, so that the clamp of a column or a row is no pixel.
-/

namespace Argand.Viewport

variable {R : Type} [Field R] [LinearOrder R] [Finiteness R]

/-- A point lies in the cell of a pixel. -/
structure InCell (v : Viewport R) (pixel : Pixel) (p : Point R) : Prop where
  left : (v.pointAt pixel).re - v.scale / 2 ≤ p.re
  right : p.re < (v.pointAt pixel).re + v.scale / 2
  lower : (v.pointAt pixel).im - v.scale / 2 < p.im
  upper : p.im ≤ (v.pointAt pixel).im + v.scale / 2

/-- A point lies in the rectangle that a viewport shows. -/
structure InView (v : Viewport R) (p : Point R) : Prop where
  left : v.center.re - v.scale * (v.width / 2) ≤ p.re
  right : p.re < v.center.re + v.scale * (v.width / 2)
  lower : v.center.im - v.scale * (v.height / 2) < p.im
  upper : p.im ≤ v.center.im + v.scale * (v.height / 2)

variable [IsStrictOrderedRing R]

theorem scale_pos (v : Viewport R) : 0 < v.scale := by
  have shorter : 0 < min v.width v.height := lt_min v.width_pos v.height_pos
  exact div_pos v.zoom_pos (by exact_mod_cast shorter)

theorem pointAt_eq (v : Viewport R) (pixel : Pixel) :
    v.pointAt pixel =
      ⟨v.center.re + v.scale * (pixel.column + 1 / 2 - v.width / 2),
        v.center.im + v.scale * (v.height / 2 - pixel.row - 1 / 2)⟩ := by
  norm_num [pointAt]

/-! ## Places -/

section Places

variable {v : Viewport R} {p : Point R} {x y : R} {pixel : Pixel}

/-- A point by the distances of its place from the middle of the rectangle. -/
theorem eq_of_screen (h : v.screen p = (x, y)) :
    p = ⟨v.center.re + v.scale * (x - v.width / 2), v.center.im + v.scale * (v.height / 2 - y)⟩ := by
  have across : (p.re - v.center.re) / v.scale + v.width / (2.0 : R) = x := congrArg Prod.fst h
  have down : v.height / (2.0 : R) - (p.im - v.center.im) / v.scale = y := congrArg Prod.snd h
  have := v.scale_pos.ne'
  ext
  · rw [← across]
    norm_num
    field_simp
    ring
  · rw [← down]
    norm_num
    field_simp
    ring

theorem le_re_iff (h : v.screen p = (x, y)) {a : R} :
    v.center.re + v.scale * (a - v.width / 2) ≤ p.re ↔ a ≤ x := by
  rw [eq_of_screen h, add_le_add_iff_left, mul_le_mul_iff_right₀ v.scale_pos, sub_le_sub_iff_right]

theorem re_lt_iff (h : v.screen p = (x, y)) {a : R} :
    p.re < v.center.re + v.scale * (a - v.width / 2) ↔ x < a := by
  rw [← not_le, le_re_iff h, not_le]

theorem im_le_iff (h : v.screen p = (x, y)) {a : R} :
    p.im ≤ v.center.im + v.scale * (v.height / 2 - a) ↔ a ≤ y := by
  rw [eq_of_screen h, add_le_add_iff_left, mul_le_mul_iff_right₀ v.scale_pos, sub_le_sub_iff_left]

theorem lt_im_iff (h : v.screen p = (x, y)) {a : R} :
    v.center.im + v.scale * (v.height / 2 - a) < p.im ↔ y < a := by
  rw [← not_le, im_le_iff h, not_le]

/-- The cell of a pixel is the unit square from its column and row on. -/
theorem inCell_iff (h : v.screen p = (x, y)) :
    v.InCell pixel p ↔
      (pixel.column ≤ x ∧ x < pixel.column + 1) ∧ pixel.row ≤ y ∧ y < pixel.row + 1 := by
  have left : v.center.re + v.scale * (pixel.column - v.width / 2) = (v.pointAt pixel).re - v.scale / 2 := by
    rw [pointAt_eq]
    ring
  have right : v.center.re + v.scale * (pixel.column + 1 - v.width / 2) =
      (v.pointAt pixel).re + v.scale / 2 := by
    rw [pointAt_eq]
    ring
  have lower : v.center.im + v.scale * (v.height / 2 - (pixel.row + 1)) =
      (v.pointAt pixel).im - v.scale / 2 := by
    rw [pointAt_eq]
    ring
  have upper : v.center.im + v.scale * (v.height / 2 - pixel.row) = (v.pointAt pixel).im + v.scale / 2 := by
    rw [pointAt_eq]
    ring
  rw [← le_re_iff h, ← re_lt_iff h, ← im_le_iff h, ← lt_im_iff h, left, right, lower, upper]
  exact ⟨fun cell => ⟨⟨cell.left, cell.right⟩, cell.upper, cell.lower⟩,
    fun ⟨⟨hl, hr⟩, hu, hd⟩ => ⟨hl, hr, hd, hu⟩⟩

/-- The rectangle in view goes from zero to the sides. -/
theorem inView_iff (h : v.screen p = (x, y)) :
    v.InView p ↔ (0 ≤ x ∧ x < v.width) ∧ 0 ≤ y ∧ y < v.height := by
  have left : v.center.re + v.scale * (0 - v.width / 2) = v.center.re - v.scale * (v.width / 2) := by ring
  have right : v.center.re + v.scale * (v.width - v.width / 2) = v.center.re + v.scale * (v.width / 2) := by ring
  have lower : v.center.im + v.scale * (v.height / 2 - v.height) = v.center.im - v.scale * (v.height / 2) := by
    ring
  have upper : v.center.im + v.scale * (v.height / 2 - 0) = v.center.im + v.scale * (v.height / 2) := by ring
  rw [← le_re_iff h, ← re_lt_iff h, ← im_le_iff h, ← lt_im_iff h, left, right, lower, upper]
  exact ⟨fun view => ⟨⟨view.left, view.right⟩, view.upper, view.lower⟩,
    fun ⟨⟨hl, hr⟩, hu, hd⟩ => ⟨hl, hr, hd, hu⟩⟩

end Places

/-! ## Pixels -/

section Pixels

variable [FloorRing R] [Rounding R] {v : Viewport R} {p : Point R} {pixel : Pixel}

/-- The pixel of a point is the one whose cell holds the point, if the rectangle has it. -/
theorem pixelOf?_eq_some_iff (exact : ExactRounding R) (width_lt : v.width < UInt64.size)
    (height_lt : v.height < UInt64.size) :
    v.pixelOf? p = some pixel ↔ pixel.column < v.width ∧ pixel.row < v.height ∧ v.InCell pixel p := by
  rcases h : v.screen p with ⟨x, y⟩
  rw [inCell_iff h, pixelOf?, h]
  dsimp only
  by_cases corner : 0 ≤ x ∧ 0 ≤ y
  · rw [if_pos (by simpa using corner)]
    constructor
    · intro found
      split at found
      · rename_i inside
        obtain ⟨column_lt, row_lt⟩ : _ ∧ _ := by simpa only [Bool.and_eq_true, decide_eq_true_eq] using inside
        obtain rfl := Option.some.inj found
        have column_room := column_lt.trans_le (Nat.le_sub_one_of_lt width_lt)
        have row_room := row_lt.trans_le (Nat.le_sub_one_of_lt height_lt)
        exact ⟨column_lt, row_lt, (exact.toNat_floor_eq_iff corner.1 column_room).mp rfl,
          (exact.toNat_floor_eq_iff corner.2 row_room).mp rfl⟩
      · cases found
    · rintro ⟨column_lt, row_lt, across, down⟩
      have column := (exact.toNat_floor_eq_iff corner.1 (by omega)).mpr across
      have row := (exact.toNat_floor_eq_iff corner.2 (by omega)).mpr down
      rw [column, row, if_pos (by simpa using ⟨column_lt, row_lt⟩)]
  · rw [if_neg (by simpa using corner)]
    constructor
    · intro found
      cases found
    · rintro ⟨-, -, across, down⟩
      exact (corner ⟨(Nat.cast_nonneg _).trans across.1, (Nat.cast_nonneg _).trans down.1⟩).elim

end Pixels

theorem inCell_pointAt (v : Viewport R) (pixel : Pixel) : v.InCell pixel (v.pointAt pixel) := by
  have half : 0 < v.scale / 2 := half_pos v.scale_pos
  exact ⟨(sub_lt_self _ half).le, lt_add_of_pos_right _ half, sub_lt_self _ half,
    (lt_add_of_pos_right _ half).le⟩

/-- A point is in view exactly if it lies in the cell of a pixel, and then in no other cell. -/
theorem inView_iff_existsUnique [FloorRing R] (v : Viewport R) (p : Point R) :
    v.InView p ↔ ∃! pixel : Pixel, pixel.column < v.width ∧ pixel.row < v.height ∧ v.InCell pixel p := by
  rcases h : v.screen p with ⟨x, y⟩
  simp only [inView_iff h, inCell_iff h]
  constructor
  · rintro ⟨⟨x_nonneg, x_lt⟩, y_nonneg, y_lt⟩
    refine ⟨⟨⌊x⌋₊, ⌊y⌋₊⟩, ?_, ?_⟩
    · exact ⟨(Nat.floor_lt x_nonneg).mpr x_lt, (Nat.floor_lt y_nonneg).mpr y_lt,
        ⟨Nat.floor_le x_nonneg, Nat.lt_floor_add_one x⟩, Nat.floor_le y_nonneg, Nat.lt_floor_add_one y⟩
    · rintro ⟨column, row⟩ ⟨-, -, across, down⟩
      rw [(Nat.floor_eq_iff x_nonneg).mpr across, (Nat.floor_eq_iff y_nonneg).mpr down]
  · rintro ⟨pixel, ⟨column_lt, row_lt, across, down⟩, -⟩
    have column_le : (pixel.column + 1 : R) ≤ v.width := by exact_mod_cast column_lt
    have row_le : (pixel.row + 1 : R) ≤ v.height := by exact_mod_cast row_lt
    exact ⟨⟨(Nat.cast_nonneg _).trans across.1, across.2.trans_le column_le⟩,
      (Nat.cast_nonneg _).trans down.1, down.2.trans_le row_le⟩

/-- In exact arithmetic, the pixel of a point is the one of the rectangle in whose cell the point lies. So the
point of a pixel has that pixel, the point of an offset has that offset, and the points in view are those that
lie in the cell of one pixel. -/
theorem cells_tile [FloorRing R] [Rounding R] (exact : ExactRounding R) (v : Viewport R)
    (width_lt : v.width < UInt64.size) (height_lt : v.height < UInt64.size) :
    (∀ (p : Point R) (pixel : Pixel),
      v.pixelOf? p = some pixel ↔ pixel.column < v.width ∧ pixel.row < v.height ∧ v.InCell pixel p) ∧
    (∀ pixel : Pixel, pixel.column < v.width → pixel.row < v.height →
      v.pixelOf? (v.pointAt pixel) = some pixel) ∧
    (∀ offset < v.size, v.offsetOf? (v.pointAtOffset offset) = some offset) ∧
    ∀ p : Point R, v.InView p ↔
      ∃! pixel : Pixel, pixel.column < v.width ∧ pixel.row < v.height ∧ v.InCell pixel p := by
  have found (pixel : Pixel) (column_lt : pixel.column < v.width) (row_lt : pixel.row < v.height) :
      v.pixelOf? (v.pointAt pixel) = some pixel :=
    (pixelOf?_eq_some_iff exact width_lt height_lt).mpr ⟨column_lt, row_lt, v.inCell_pointAt pixel⟩
  refine ⟨fun p pixel => pixelOf?_eq_some_iff exact width_lt height_lt, found, ?_, v.inView_iff_existsUnique⟩
  intro offset h
  obtain ⟨column_lt, row_lt⟩ := v.pixelAt_inside h
  rw [offsetOf?, pointAtOffset, found _ column_lt row_lt, Option.map_some, v.offset_pixelAt]

/-- A view that is wider than high, with a center and a scale that are no whole numbers. -/
theorem cells_tile_wide :
    let v : Viewport ℚ := ⟨4, 3, ⟨-1 / 2, 1 / 4⟩, 7 / 5, by decide, by decide, rfl, by decide +kernel⟩
    v.width < UInt64.size ∧ v.height < UInt64.size ∧
      v.pixelOf? ⟨-1 / 2, 1 / 4⟩ = some ⟨2, 1⟩ ∧ v.offsetOf? (v.pointAtOffset 11) = some 11 := by
  intro v
  have width_lt : v.width < UInt64.size := by decide
  have height_lt : v.height < UInt64.size := by decide
  obtain ⟨pixels, -, offsets, -⟩ := cells_tile exactRounding_rational v width_lt height_lt
  refine ⟨width_lt, height_lt, (pixels _ _).mpr ⟨by decide, by decide, ?_⟩, offsets 11 (by decide)⟩
  constructor <;> decide +kernel

end Argand.Viewport
