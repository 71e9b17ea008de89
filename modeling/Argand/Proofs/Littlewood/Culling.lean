import Argand.Proofs.Littlewood.Dots
import Argand.Proofs.Rounding
import Mathlib.Tactic.NormNum

/-!
# Dots at the border

A dot is a block of pixels around the place of its point (`InBlock`). Dots off the picture by more than their size
are passed over, which is found out on places that are rounded. None of these has a pixel in its block
(`not_inBlock_of_left`, `not_inBlock_of_right`), since a block reaches no more than half its size to either side of
its place and rounding takes away much less than the other half. So a dot is drawn on just the pixels of its block that
the picture has (`plot_draws_block`).
-/

namespace Argand.Littlewood.Tracker

/-! ## Blocks -/

section Blocks

variable {K : Type} [Field K] [LinearOrder K] [FloorRing K]

/-- A column or a row is one of those that a dot of some size around a place has. -/
def InBlock (place : K) (size k : ℕ) : Prop :=
  ⌊place⌋ - (size / 2 : ℕ) ≤ k ∧ (k : ℤ) < ⌊place⌋ - (size / 2 : ℕ) + size

instance (place : K) (size k : ℕ) : Decidable (InBlock place size k) :=
  inferInstanceAs (Decidable (_ ∧ _))

variable {place : K} {size k extent : ℕ}

/-- The clamps of a whole number of sixty-four bits are no matter for a picture. -/
theorem inBlock_clamp (word : size < 2 ^ 63) (small : k < 2 ^ 32) :
    InBlock place size k ↔
      max (-2 ^ 63) (min ⌊place⌋ (2 ^ 63 - 1)) - (size / 2 : ℕ) ≤ k ∧
        (k : ℤ) < max (-2 ^ 63) (min ⌊place⌋ (2 ^ 63 - 1)) - (size / 2 : ℕ) + size := by
  rw [InBlock]
  omega

end Blocks

/-! ## What is passed over -/

section Margins

variable {R K : Type} [LE R] [Add R] [Neg R] [NatCast R] [Rounding R] [Finiteness R] [Field K] [LinearOrder K]
  [IsStrictOrderedRing K] [FloorRing K] {val : R → K} {place : R} {size k extent : ℕ}

/-- A place is off a side by no more than the size of a dot. -/
def Near (place : R) (size extent : ℕ) : Prop :=
  -(size : R) ≤ place ∧ place ≤ (extent : R) + (size : R)

instance [DecidableLE R] (place : R) (size extent : ℕ) : Decidable (Near place size extent) :=
  inferInstanceAs (Decidable (_ ∧ _))

theorem half_bounds (size : ℕ) : (size : K) ≤ 2 * (size / 2 : ℕ) + 1 ∧ 2 * ((size / 2 : ℕ) : K) ≤ size := by
  constructor
  · exact_mod_cast (by omega : size ≤ 2 * (size / 2) + 1)
  · exact_mod_cast (by omega : 2 * (size / 2) ≤ size)

/-- The block of a dot too far to the left ends before the picture. -/
theorem not_inBlock_of_left (values : RoundedValues val) (finite : Finiteness.isFinite place = true)
    (word : size < 2 ^ 63) (far : ¬-(size : R) ≤ place) : ¬InBlock (val place) size k := by
  obtain ⟨finite_size, rounded⟩ := values.natCast (show size < 2 ^ 64 by omega)
  obtain ⟨finite_neg, opposite⟩ := values.neg finite_size
  rw [values.le_iff finite_neg finite, opposite, not_le] at far
  obtain ⟨low, -⟩ := abs_le.mp rounded
  obtain ⟨half, -⟩ := half_bounds (K := K) size
  have nonneg : (0 : K) ≤ size := Nat.cast_nonneg size
  have floor_lt : ((⌊val place⌋ : ℤ) : K) < ((-(size : ℤ) + (size / 2 : ℕ) + 1 : ℤ) : K) := by
    have := Int.floor_le (val place)
    rw [Int.cast_add, Int.cast_add, Int.cast_neg, Int.cast_natCast, Int.cast_natCast, Int.cast_one]
    linarith
  have := Int.cast_lt.mp floor_lt
  rintro ⟨-, inside⟩
  omega

/-- The block of a dot too far to the right begins behind the picture. -/
theorem not_inBlock_of_right (values : RoundedValues val) (finite : Finiteness.isFinite place = true)
    (nonempty : 1 ≤ size) (word : size < 2 ^ 63) (side : extent < 2 ^ 32) (far : ¬place ≤ (extent : R) + (size : R))
    (inside : k < extent) : ¬InBlock (val place) size k := by
  obtain ⟨finite_size, rounded_size⟩ := values.natCast (show size < 2 ^ 64 by omega)
  obtain ⟨finite_extent, rounded_extent⟩ := values.natCast (show extent < 2 ^ 64 by omega)
  obtain ⟨size_low, size_high⟩ := abs_le.mp rounded_size
  obtain ⟨extent_low, extent_high⟩ := abs_le.mp rounded_extent
  have one_le : (1 : K) ≤ size := by exact_mod_cast nonempty
  have size_le : (size : K) ≤ 2 ^ 63 := by exact_mod_cast word.le
  have extent_le : (extent : K) ≤ 2 ^ 32 := by exact_mod_cast side.le
  have extent_nonneg : (0 : K) ≤ extent := Nat.cast_nonneg extent
  have nonneg : 0 ≤ val (extent : R) + val (size : R) := by linarith
  have room : |val (extent : R) + val (size : R)| ≤ 2 ^ 1000 := by
    have small : val (extent : R) + val (size : R) ≤ 2 ^ 65 := by linarith
    rw [abs_of_nonneg nonneg]
    exact small.trans (pow_le_pow_right₀ one_le_two (by decide))
  obtain ⟨finite_sum, rounded_sum⟩ := values.add finite_extent finite_size room
  rw [abs_of_nonneg nonneg] at rounded_sum
  obtain ⟨sum_low, -⟩ := abs_le.mp rounded_sum
  rw [values.le_iff finite finite_sum, not_le] at far
  obtain ⟨-, half⟩ := half_bounds (K := K) size
  -- what three roundings take away is less than the half of the size that a block does not reach
  have le_place : ((extent + (size / 2 : ℕ) : ℤ) : K) ≤ val place := by
    rw [Int.cast_add, Int.cast_natCast, Int.cast_natCast]
    linarith
  have := Int.le_floor.mpr le_place
  rintro ⟨begins, -⟩
  omega

/-- A dot with a pixel in a picture is not passed over. -/
theorem near_of_inBlock (values : RoundedValues val) (finite : Finiteness.isFinite place = true)
    (nonempty : 1 ≤ size) (word : size < 2 ^ 63) (side : extent < 2 ^ 32) (inside : k < extent)
    (block : InBlock (val place) size k) : Near place size extent := by
  constructor
  · by_contra far
    exact not_inBlock_of_left values finite word far block
  · by_contra far
    exact not_inBlock_of_right values finite nonempty word side far inside block

end Margins

/-! ## What is drawn -/

/-- The spots of a block of pixels whose upper left one is at a column and a row, where these are not negative. -/
def blockSpots (left top : ℤ) (size : ℕ) (c : Color UInt8) : List Spot :=
  (List.range size).flatMap fun (dx : ℕ) => (List.range size).flatMap fun (dy : ℕ) =>
    if 0 ≤ left + dx && 0 ≤ top + dy then [⟨⟨(left + dx).toNat, (top + dy).toNat⟩, c⟩] else []

theorem mem_blockSpots {left top : ℤ} {size : ℕ} {c : Color UInt8} {spot : Spot} :
    spot ∈ blockSpots left top size c ↔ spot.color = c ∧
      (left ≤ spot.pixel.column ∧ (spot.pixel.column : ℤ) < left + size) ∧
      top ≤ spot.pixel.row ∧ (spot.pixel.row : ℤ) < top + size := by
  simp only [blockSpots, List.mem_flatMap, List.mem_range, Bool.and_eq_true, decide_eq_true_eq]
  constructor
  · rintro ⟨dx, hdx, dy, hdy, drawn⟩
    split at drawn
    case isTrue nonneg =>
      rw [List.mem_singleton.mp drawn]
      refine ⟨rfl, ?_⟩
      dsimp only
      omega
    case isFalse => exact absurd drawn List.not_mem_nil
  · rintro ⟨rfl, columns, rows⟩
    have column : left + ((spot.pixel.column - left).toNat : ℕ) = spot.pixel.column := by omega
    have row : top + ((spot.pixel.row - top).toNat : ℕ) = spot.pixel.row := by omega
    refine ⟨(spot.pixel.column - left).toNat, by omega, (spot.pixel.row - top).toNat, by omega, ?_⟩
    rw [column, row, if_pos ⟨Int.natCast_nonneg _, Int.natCast_nonneg _⟩]
    exact List.mem_singleton.mpr rfl

section Drawing

variable {R : Type} [Zero R] [LT R] [LE R] [DecidableLE R] [Finiteness R] [Add R] [Sub R] [Div R] [Neg R]
  [NatCast R] [OfScientific R] [Rounding R]

theorem dotSpots_eq (v : Viewport R) (point : Point R) (size : ℕ) (c : Color UInt8) (width height : ℕ) :
    dotSpots v point size c width height =
      if Near (v.screen point).1 size width ∧ Near (v.screen point).2 size height then
        blockSpots (Rounding.toInt (Rounding.floor (v.screen point).1) - (size / 2 : ℕ))
          (Rounding.toInt (Rounding.floor (v.screen point).2) - (size / 2 : ℕ)) size c
      else [] := by
  simp only [dotSpots, blockSpots, Near, Bool.and_eq_true, decide_eq_true_eq]

variable {K : Type} [Field K] [LinearOrder K] [IsStrictOrderedRing K] [FloorRing K] {val : R → K}
  {size width height column row : ℕ}

/-- A picture has the pixels of a block that are seen on it. -/
theorem exists_mem_dotSpots (values : RoundedValues val) (v : Viewport R) (point : Point R) (c : Color UInt8)
    (finite_x : Finiteness.isFinite (v.screen point).1 = true)
    (finite_y : Finiteness.isFinite (v.screen point).2 = true) (nonempty : 1 ≤ size) (word : size < 2 ^ 63)
    (hw : width < 2 ^ 32) (hh : height < 2 ^ 32) (hc : column < width) (hr : row < height) :
    (∃ spot ∈ dotSpots v point size c width height, spot.pixel = ⟨column, row⟩) ↔
      InBlock (val (v.screen point).1) size column ∧ InBlock (val (v.screen point).2) size row := by
  rw [dotSpots_eq]
  split
  case isTrue near =>
    rw [inBlock_clamp word (by omega), inBlock_clamp word (by omega), ← values.toInt_floor finite_x,
      ← values.toInt_floor finite_y]
    constructor
    · rintro ⟨spot, hspot, here⟩
      have := (mem_blockSpots.mp hspot).2
      rwa [here] at this
    · exact fun block => ⟨⟨⟨column, row⟩, c⟩, mem_blockSpots.mpr ⟨rfl, block⟩, rfl⟩
  case isFalse far =>
    refine iff_of_false (fun ⟨_, drawn, _⟩ => absurd drawn List.not_mem_nil) fun ⟨columns, rows⟩ => far ⟨?_, ?_⟩
    · exact near_of_inBlock values finite_x nonempty word hw hc columns
    · exact near_of_inBlock values finite_y nonempty word hh hr rows

/-- A dot is drawn on the pixels of its block that the picture has, and on no others, and it is passed over only if
there are none of them. Its place is rounded down without an error, but the place, its size and the sides of the
picture may have been rounded before they are compared. -/
theorem plot_draws_block (values : RoundedValues val) (v : Viewport R) (point : Point R) (size : ℕ)
    (c : Color UInt8) (target : Picture) (nonempty : 1 ≤ size) (word : size < 2 ^ 63)
    (hw : target.width < 2 ^ 32) (hh : target.height < 2 ^ 32)
    (finite_x : Finiteness.isFinite (v.screen point).1 = true)
    (finite_y : Finiteness.isFinite (v.screen point).2 = true) :
    let picture := plot v point size c target
    let x := val (v.screen point).1
    let y := val (v.screen point).2
    (picture.width = target.width ∧ picture.height = target.height) ∧
    (∀ column row, picture.get? column row =
      if (column < target.width ∧ row < target.height) ∧ InBlock x size column ∧ InBlock y size row then some c
      else target.get? column row) ∧
    (¬(Near (v.screen point).1 size target.width ∧ Near (v.screen point).2 size target.height) →
      picture = target ∧ ∀ column < target.width, ∀ row < target.height,
        ¬(InBlock x size column ∧ InBlock y size row)) := by
  intro picture x y
  have drawn : picture = target.putAll (dotSpots v point size c target.width target.height) :=
    puts_plot v point size c target
  refine ⟨?_, fun column row => ?_, fun far => ⟨?_, fun column hc row hr ⟨columns, rows⟩ => far ⟨?_, ?_⟩⟩⟩
  · rw [drawn, Picture.width_putAll, Picture.height_putAll]
    exact ⟨rfl, rfl⟩
  · have color : ∀ spot ∈ dotSpots v point size c target.width target.height, spot.color = c := by
      intro spot hspot
      rw [dotSpots_eq] at hspot
      split at hspot
      · exact (mem_blockSpots.mp hspot).1
      · exact absurd hspot List.not_mem_nil
    rw [drawn, Picture.get?_putAll_of_color target color]
    refine if_congr (and_congr_right fun inside => ?_) rfl rfl
    exact exists_mem_dotSpots values v point c finite_x finite_y nonempty word hw hh inside.1 inside.2
  · rw [drawn, dotSpots_eq, if_neg far, Picture.putAll_nil]
  · exact near_of_inBlock values finite_x nonempty word hw hc columns
  · exact near_of_inBlock values finite_y nonempty word hh hr rows

end Drawing

/-- Half a pixel to the left of a picture, a dot of four pixels reaches into the first column, and a dot of two is
drawn on no pixel. Further to the left the dot of four is passed over. -/
theorem plot_draws_block_left :
    let v : Viewport ℚ := ⟨4, 3, 0, 9 / 5, by decide, by decide, by decide, by decide +kernel⟩
    let c : Color UInt8 := ⟨1, 2, 3⟩
    let black : Picture := .black 4 3
    v.screen ⟨-3 / 2, 3 / 5⟩ = (-1 / 2, 1 / 2) ∧
      (plot v ⟨-3 / 2, 3 / 5⟩ 4 c black).get? 0 1 = some c ∧
      (plot v ⟨-3 / 2, 3 / 5⟩ 4 c black).get? 0 2 = black.get? 0 2 ∧
      (∀ column row, (plot v ⟨-3 / 2, 3 / 5⟩ 2 c black).get? column row = black.get? column row) ∧
      plot v ⟨-39 / 10, 3 / 5⟩ 4 c black = black := by
  intro v c black
  have values : RoundedValues (id : ℚ → ℚ) := exactRounding_rational.values fun _ => rfl
  have place : v.screen ⟨-3 / 2, 3 / 5⟩ = (-1 / 2, 1 / 2) := by decide +kernel
  have large := (plot_draws_block values v ⟨-3 / 2, 3 / 5⟩ 4 c black (by decide) (by decide) (by decide) (by decide)
    rfl rfl).2.1
  have small := (plot_draws_block values v ⟨-3 / 2, 3 / 5⟩ 2 c black (by decide) (by decide) (by decide) (by decide)
    rfl rfl).2.1
  have far := (plot_draws_block values v ⟨-39 / 10, 3 / 5⟩ 4 c black (by decide) (by decide) (by decide) (by decide)
    rfl rfl).2.2
  rw [place] at large small
  refine ⟨place, ?_, ?_, fun column row => ?_, (far (by decide +kernel)).1⟩
  · rw [large, if_pos (by decide +kernel)]
  · rw [large, if_neg (by decide +kernel)]
  · have left : ⌊(id (-1 / 2) : ℚ)⌋ = -1 := by decide +kernel
    rw [small, if_neg]
    rintro ⟨-, ⟨-, columns⟩, -⟩
    dsimp only at columns
    omega

end Argand.Littlewood.Tracker
