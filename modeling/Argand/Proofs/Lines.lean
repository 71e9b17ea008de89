import Argand.Proofs.Spots
import Argand.Proofs.Tiling
import Mathlib.Logic.Relation

/-!
# Lines and their gaps

The pixels that are met along a segment either touch each other one after the other, or there are gaps between
them (`Segment.Unbroken`). In exact arithmetic they are the floors of places in even steps (`place`), of which
there are as many as the longer side of the segment has pixels, up to a limit that the sides of the picture set
(`Segment.strides_eq`). Steps of at most one leave no gap, and longer steps reach a new whole number each, so
there is no gap exactly if there are as many steps as whole numbers to go (`floors_near_iff`). Hence the limit
alone decides, by the pixels of the two ends (`Segment.unbroken_iff`), and a segment that is short in the plane has
no gaps (`Segment.Spans.unbroken`).

Places go one way only, so the steps in view follow each other, and without gaps their pixels are joined
(`Segment.reflTransGen_joins`). The steps are even over the whole segment, though, with the part out of view : when
the limit is too low for it, what is in view can be missed altogether (`realAxis_missed`).
-/

namespace Argand

/-! ## Walks on whole numbers -/

section Walks

variable {c : ℕ → ℤ} {n i : ℕ}

/-- A walk of `n` steps of at most one gets no further than `n`. -/
theorem abs_walk_le (near : ∀ i < n, |c (i + 1) - c i| ≤ 1) : |c n - c 0| ≤ n := by
  induction n with
  | zero => simp
  | succ n ih =>
    have before := abs_le.mp (ih fun i hi => near i (by omega))
    have last := abs_le.mp (near n (by omega))
    rw [abs_le]
    omega

/-- A walk up gets as far as it has steps. -/
theorem le_walk (rises : ∀ i < n, 1 ≤ c (i + 1) - c i) : ∀ {j k : ℕ}, j + k ≤ n → c j + k ≤ c (j + k)
  | j, 0, _ => by simp
  | j, k + 1, room => by
    have before := le_walk rises (show j + k ≤ n by omega)
    have step := rises (j + k) (by omega)
    rw [← Nat.add_assoc]
    omega

/-- A walk up that gets no further than it has steps has steps of one. -/
theorem rise_eq_one (rises : ∀ i < n, 1 ≤ c (i + 1) - c i) (total : c n - c 0 ≤ n) (hi : i < n) :
    c (i + 1) - c i = 1 := by
  have before := le_walk rises (show 0 + i ≤ n by omega)
  have after := le_walk rises (show i + 1 + (n - (i + 1)) ≤ n by omega)
  have step := rises i hi
  rw [Nat.zero_add] at before
  rw [Nat.add_sub_cancel' hi] at after
  omega

end Walks

/-! ## Floors along a line -/

section Floors

variable {R : Type} [Field R] [LinearOrder R] [IsStrictOrderedRing R] [FloorRing R] {a b : R} {n i j k : ℕ}

theorem abs_floor_sub_floor_le (x y : R) : |⌊y⌋ - ⌊x⌋| ≤ ⌈|y - x|⌉ := by
  have up : ⌊y⌋ ≤ ⌊x⌋ + ⌈|y - x|⌉ := by
    rw [← Int.floor_add_intCast]
    exact Int.floor_mono (by linarith [le_abs_self (y - x), Int.le_ceil |y - x|])
  have down : ⌊x⌋ ≤ ⌊y⌋ + ⌈|y - x|⌉ := by
    rw [← Int.floor_add_intCast]
    exact Int.floor_mono (by linarith [neg_abs_le (y - x), Int.le_ceil |y - x|])
  rw [abs_le]
  omega

/-- The place that is reached after `i` of `n` even steps from `a` to `b`. -/
def place (a b : R) (n i : ℕ) : R :=
  a + (b - a) * ((i : R) / n)

omit [LinearOrder R] [IsStrictOrderedRing R] [FloorRing R] in
theorem place_zero (a b : R) (n : ℕ) : place a b n 0 = a := by
  rw [place, Nat.cast_zero, zero_div, mul_zero, add_zero]

omit [FloorRing R] in
theorem place_self (a b : R) (h : 0 < n) : place a b n n = b := by
  have : (n : R) ≠ 0 := by exact_mod_cast h.ne'
  rw [place, div_self this, mul_one, add_sub_cancel]

omit [LinearOrder R] [IsStrictOrderedRing R] [FloorRing R] in
theorem place_succ (a b : R) (n i : ℕ) : place a b n (i + 1) = place a b n i + (b - a) / n := by
  rw [place, place]
  push_cast
  ring

theorem floor_place_lt_succ (up : 1 ≤ (b - a) / n) (i : ℕ) : ⌊place a b n i⌋ < ⌊place a b n (i + 1)⌋ := by
  rw [← Int.add_one_le_iff, ← Int.floor_add_one, place_succ]
  exact Int.floor_mono (add_le_add_right up _)

theorem floor_place_succ_lt (down : 1 ≤ -((b - a) / n)) (i : ℕ) : ⌊place a b n (i + 1)⌋ < ⌊place a b n i⌋ := by
  rw [← Int.le_sub_one_iff, ← Int.floor_sub_one, place_succ]
  exact Int.floor_mono (by linarith)

/-- Even steps from `a` to `b` meet the whole numbers between them without a gap exactly if there are as many steps
as there are whole numbers to go. -/
theorem floors_near_iff (h : 0 < n) :
    (∀ i < n, |⌊place a b n (i + 1)⌋ - ⌊place a b n i⌋| ≤ 1) ↔ |⌊b⌋ - ⌊a⌋| ≤ n := by
  have start : ⌊a⌋ = ⌊place a b n 0⌋ := by rw [place_zero]
  have stop : ⌊b⌋ = ⌊place a b n n⌋ := by rw [place_self a b h]
  rw [start, stop]
  constructor
  · exact fun near => abs_walk_le (c := fun i => ⌊place a b n i⌋) near
  · intro total i hi
    obtain ⟨least, most⟩ := abs_le.mp total
    rcases le_or_gt |(b - a) / n| 1 with short | long
    · -- Steps of at most one meet floors that are at most one apart, however many there are.
      refine (abs_floor_sub_floor_le _ _).trans (Int.ceil_le.mpr ?_)
      rw [place_succ, add_sub_cancel_left]
      exact_mod_cast short
    · -- Longer steps change the floor every time, so there must not be more floors than steps.
      rw [abs_le]
      rcases lt_abs.mp long with up | down
      · have rises (i : ℕ) := floor_place_lt_succ up.le i
        have step := rise_eq_one (c := fun i => ⌊place a b n i⌋) (fun i _ => by have := rises i; omega) most hi
        omega
      · have falls (i : ℕ) := floor_place_succ_lt down.le i
        have step := rise_eq_one (c := fun i => -⌊place a b n i⌋) (fun i _ => by have := falls i; omega) (by omega) hi
        omega

/-- Along a line, places only grow or only shrink. -/
theorem floor_place_between (hj : i ≤ j) (hk : j ≤ k) (n : ℕ) :
    min ⌊place a b n i⌋ ⌊place a b n k⌋ ≤ ⌊place a b n j⌋ ∧
      ⌊place a b n j⌋ ≤ max ⌊place a b n i⌋ ⌊place a b n k⌋ := by
  have share : ∀ {i j : ℕ}, i ≤ j → (i : R) / n ≤ j / n := fun h =>
    div_le_div_of_nonneg_right (by exact_mod_cast h) (Nat.cast_nonneg n)
  rcases le_total a b with up | down
  · have grows : ∀ {i j : ℕ}, i ≤ j → ⌊place a b n i⌋ ≤ ⌊place a b n j⌋ := fun h =>
      Int.floor_mono (add_le_add_right (mul_le_mul_of_nonneg_left (share h) (sub_nonneg.mpr up)) a)
    exact ⟨min_le_of_left_le (grows hj), le_max_of_le_right (grows hk)⟩
  · have shrinks : ∀ {i j : ℕ}, i ≤ j → ⌊place a b n j⌋ ≤ ⌊place a b n i⌋ := fun h =>
      Int.floor_mono (add_le_add_right (mul_le_mul_of_nonpos_left (share h) (sub_nonpos.mpr down)) a)
    exact ⟨min_le_of_right_le (shrinks hk), le_max_of_le_left (shrinks hj)⟩

end Floors

/-! ## Distances and lengths -/

section Lengths

variable {R : Type} [Field R] [LinearOrder R]

/-- Two places are at most a distance apart, across and down. -/
structure Within (distance : R) (p q : R × R) : Prop where
  across : |q.1 - p.1| ≤ distance
  down : |q.2 - p.2| ≤ distance

theorem Within.symm {distance : R} {p q : R × R} (h : Within distance p q) : Within distance q p :=
  ⟨(abs_sub_comm ..).trans_le h.across, (abs_sub_comm ..).trans_le h.down⟩

/-- A segment is no longer than a length, across and upwards. -/
structure Segment.Spans (s : Segment R) (length : R) : Prop where
  across : |s.stop.re - s.start.re| ≤ length
  upwards : |s.stop.im - s.start.im| ≤ length

theorem Segment.Spans.reflect {s : Segment R} {length : R} (h : s.Spans length) : s.reflect.Spans length :=
  ⟨h.upwards, h.across⟩

variable [IsStrictOrderedRing R]

theorem within_intCast_iff {d x y x' y' : ℤ} :
    Within (d : R) (x, y) (x', y') ↔ |x' - x| ≤ d ∧ |y' - y| ≤ d := by
  have cast (a b : ℤ) : |(b : R) - a| ≤ d ↔ |b - a| ≤ d := by exact_mod_cast Iff.rfl
  exact ⟨fun h => ⟨(cast _ _).mp h.across, (cast _ _).mp h.down⟩,
    fun h => ⟨(cast _ _).mpr h.1, (cast _ _).mpr h.2⟩⟩

/-- On a picture, the ends are as far apart as in the plane, on another scale. -/
theorem Segment.Spans.screen [Finiteness R] {s : Segment R} {length : R} (h : s.Spans length) (v : Viewport R) :
    Within (length / v.scale) (v.screen s.start) (v.screen s.stop) := by
  have pos := v.scale_pos
  constructor
  · rw [Viewport.screen, Viewport.screen, add_sub_add_right_eq_sub, ← sub_div, sub_sub_sub_cancel_right, abs_div,
      abs_of_pos pos]
    exact div_le_div_of_nonneg_right h.across pos.le
  · rw [Viewport.screen, Viewport.screen, sub_sub_sub_cancel_left, ← sub_div, sub_sub_sub_cancel_right, abs_div,
      abs_of_pos pos, abs_sub_comm]
    exact div_le_div_of_nonneg_right h.upwards pos.le

theorem spans_of_mem_realAxis {s : Segment R} (h : s ∈ realAxis R) : s.Spans (11 / 5) := by
  rw [realAxis, List.mem_append] at h
  rcases h with line | tick
  · simp only [List.mem_cons, List.not_mem_nil, or_false] at line
    rcases line with rfl | rfl | rfl
    · constructor <;> norm_num [abs_le]
    · constructor <;> norm_num [abs_le]
    · constructor <;> norm_num [abs_le]
  · obtain ⟨i, -, rfl⟩ := List.mem_map.mp tick
    constructor <;> norm_num [abs_le]

theorem spans_of_mem_axes {s : Segment R} (h : s ∈ axes R) : s.Spans (11 / 5) := by
  rw [axes, List.mem_append] at h
  rcases h with real | imaginary
  · exact spans_of_mem_realAxis real
  · obtain ⟨t, ht, rfl⟩ := List.mem_map.mp imaginary
    exact (spans_of_mem_realAxis ht).reflect

end Lengths

/-! ## Segments -/

section Segments

variable {R : Type} [Field R] [LinearOrder R]

/-- The upper left corner of a pixel. -/
def Pixel.corner (pixel : Pixel) : R × R :=
  (pixel.column, pixel.row)

variable [Rounding R] [Finiteness R]

/-- The corner of the pixel a point would fall in, in view or not. -/
def Viewport.corner (v : Viewport R) (p : Point R) : R × R :=
  (Rounding.floor (v.screen p).1, Rounding.floor (v.screen p).2)

theorem Viewport.within_corner_iff [IsStrictOrderedRing R] [FloorRing R] (exact : ExactRounding R) (v : Viewport R)
    {n : ℕ} {p q : Point R} :
    Within (n : R) (v.corner p) (v.corner q) ↔
      |⌊(v.screen q).1⌋ - ⌊(v.screen p).1⌋| ≤ n ∧ |⌊(v.screen q).2⌋ - ⌊(v.screen p).2⌋| ≤ n := by
  rw [corner, corner, exact.floor_eq, exact.floor_eq, exact.floor_eq, exact.floor_eq, ← Int.cast_natCast,
    within_intCast_iff]

namespace Segment

/-- The number of steps along a segment, on a picture of the sides of a viewport. -/
def strides (s : Segment R) (v : Viewport R) : ℕ :=
  steps ((v.width + v.height) * 2) (v.screen s.start) (v.screen s.stop)

/-- The corner of the pixel that is met after some steps along a segment. -/
def met (s : Segment R) (v : Viewport R) (i : ℕ) : R × R :=
  visited (v.screen s.start) (v.screen s.stop) (s.strides v) i

/-- Each pixel that is met along a segment touches the next one. -/
def Unbroken (s : Segment R) (v : Viewport R) : Prop :=
  ∀ i < s.strides v, Within 1 (s.met v i) (s.met v (i + 1))

/-- A segment is drawn over a pixel of the picture. -/
structure Paints (s : Segment R) (v : Viewport R) (c : Color UInt8) (pixel : Pixel) : Prop where
  column_lt : pixel.column < v.width
  row_lt : pixel.row < v.height
  mem : ⟨pixel, c⟩ ∈ s.spots v c v.width v.height

/-- Two pixels that a segment is drawn over touch each other. -/
structure Joins (s : Segment R) (v : Viewport R) (c : Color UInt8) (p q : Pixel) : Prop where
  left : s.Paints v c p
  right : s.Paints v c q
  touch : Within (1 : R) p.corner q.corner

variable {s : Segment R} {v : Viewport R} {c : Color UInt8} {p q : Pixel} {i j k : ℕ}

instance : Std.Symm (s.Joins v c) :=
  ⟨fun _ _ h => ⟨h.right, h.left, h.touch.symm⟩⟩

variable [FloorRing R]

/-- The column that is met after some steps. -/
def columnAt (s : Segment R) (v : Viewport R) (i : ℕ) : ℤ :=
  ⌊place (v.screen s.start).1 (v.screen s.stop).1 (s.strides v) i⌋

/-- The row that is met after some steps. -/
def rowAt (s : Segment R) (v : Viewport R) (i : ℕ) : ℤ :=
  ⌊place (v.screen s.start).2 (v.screen s.stop).2 (s.strides v) i⌋

/-- A pixel is met after some steps. -/
def Meets (s : Segment R) (v : Viewport R) (i : ℕ) (pixel : Pixel) : Prop :=
  s.columnAt v i = pixel.column ∧ s.rowAt v i = pixel.row

theorem Meets.eq (hp : s.Meets v i p) (hq : s.Meets v i q) : p = q := by
  obtain ⟨column, row⟩ := p
  obtain ⟨column', row'⟩ := q
  have columns : (column : ℤ) = column' := hp.1.symm.trans hq.1
  have rows : (row : ℤ) = row' := hp.2.symm.trans hq.2
  rw [Nat.cast_inj.mp columns, Nat.cast_inj.mp rows]

theorem met_eq (exact : ExactRounding R) (s : Segment R) (v : Viewport R) (i : ℕ) :
    s.met v i = ((s.columnAt v i : R), (s.rowAt v i : R)) := by
  rw [met, visited, exact.floor_eq, exact.floor_eq]
  rfl

variable [IsStrictOrderedRing R]

/-- Between two pixels in view, only pixels in view are met. -/
theorem exists_meets_between (hp : p.column < v.width ∧ p.row < v.height)
    (hq : q.column < v.width ∧ q.row < v.height) (hi : s.Meets v i p) (hk : s.Meets v k q)
    (hij : i ≤ j) (hjk : j ≤ k) :
    ∃ r : Pixel, (r.column < v.width ∧ r.row < v.height) ∧ s.Meets v j r := by
  have across : min (s.columnAt v i) (s.columnAt v k) ≤ s.columnAt v j ∧
      s.columnAt v j ≤ max (s.columnAt v i) (s.columnAt v k) := floor_place_between hij hjk _
  have down : min (s.rowAt v i) (s.rowAt v k) ≤ s.rowAt v j ∧
      s.rowAt v j ≤ max (s.rowAt v i) (s.rowAt v k) := floor_place_between hij hjk _
  obtain ⟨column, row⟩ := hi
  obtain ⟨column', row'⟩ := hk
  exact ⟨⟨(s.columnAt v j).toNat, (s.rowAt v j).toNat⟩, ⟨by dsimp only; omega, by dsimp only; omega⟩,
    (Int.toNat_of_nonneg (by omega)).symm, (Int.toNat_of_nonneg (by omega)).symm⟩

theorem unbroken_iff_near (exact : ExactRounding R) :
    s.Unbroken v ↔ (∀ i < s.strides v, |s.columnAt v (i + 1) - s.columnAt v i| ≤ 1) ∧
      ∀ i < s.strides v, |s.rowAt v (i + 1) - s.rowAt v i| ≤ 1 := by
  rw [← forall₂_and]
  refine forall₂_congr fun i _ => ?_
  rw [met_eq exact, met_eq exact, ← within_intCast_iff (R := R), Int.cast_one]

theorem mem_cornerSpots (exact : ExactRounding R) {x y : ℤ} (column_room : p.column < UInt64.size - 1)
    (row_room : p.row < UInt64.size - 1) :
    ⟨p, c⟩ ∈ cornerSpots ((x : R), (y : R)) c ↔ x = p.column ∧ y = p.row := by
  obtain ⟨column, row⟩ := p
  dsimp only at column_room row_room ⊢
  rw [cornerSpots]
  by_cases corner : 0 ≤ x ∧ 0 ≤ y
  · rw [if_pos (by simpa using corner), List.mem_singleton, exact.toNat_intCast corner.1,
      exact.toNat_intCast corner.2]
    simp only [Spot.mk.injEq, Pixel.mk.injEq, and_true]
    omega
  · rw [if_neg (by simpa using corner)]
    simp only [List.not_mem_nil, false_iff]
    omega

/-- There are as many steps as the longer side has pixels, but at least one of them and at most `limit`. -/
theorem steps_eq (exact : ExactRounding R) {limit : ℕ} (room : limit < UInt64.size) (a b : R × R) :
    (steps limit a b : ℤ) = min (max ⌈max |b.1 - a.1| |b.2 - a.2|⌉ 1) limit := by
  rw [steps, magnitude_eq_abs, magnitude_eq_abs, exact.larger_eq, exact.larger_eq, exact.ceil_eq]
  generalize ⌈max |b.1 - a.1| |b.2 - a.2|⌉ = long
  have whole : max (long : R) 1 = (max long 1 : ℤ) := by push_cast; rfl
  rw [whole, exact.toNat_intCast (by omega)]
  omega

section Limit

variable (exact : ExactRounding R) (width_lt : v.width < UInt32.size) (height_lt : v.height < UInt32.size)
include exact width_lt height_lt

theorem strides_eq :
    (s.strides v : ℤ) = min (max ⌈max |(v.screen s.stop).1 - (v.screen s.start).1|
      |(v.screen s.stop).2 - (v.screen s.start).2|⌉ 1) ((v.width + v.height) * 2 : ℕ) := by
  have words : UInt32.size * 4 < UInt64.size := by decide
  exact steps_eq exact (by omega) _ _

theorem strides_pos : 0 < s.strides v := by
  have := strides_eq (s := s) exact width_lt height_lt
  have := v.width_pos
  omega

/-- The steps of a segment leave no gaps exactly if its ends are not further apart than the limit of the steps. -/
theorem unbroken_iff :
    s.Unbroken v ↔ Within (((v.width + v.height) * 2 : ℕ) : R) (v.corner s.start) (v.corner s.stop) := by
  have enough := strides_eq (s := s) exact width_lt height_lt
  have pos := strides_pos (s := s) exact width_lt height_lt
  have across := abs_floor_sub_floor_le (v.screen s.start).1 (v.screen s.stop).1
  have down := abs_floor_sub_floor_le (v.screen s.start).2 (v.screen s.stop).2
  have wide := Int.ceil_mono (le_max_left |(v.screen s.stop).1 - (v.screen s.start).1|
    |(v.screen s.stop).2 - (v.screen s.start).2|)
  have high := Int.ceil_mono (le_max_right |(v.screen s.stop).1 - (v.screen s.start).1|
    |(v.screen s.stop).2 - (v.screen s.start).2|)
  rw [unbroken_iff_near exact, v.within_corner_iff exact]
  -- The steps that the length asks for always suffice for the floors, so only the limit can leave too few.
  exact and_congr ((floors_near_iff pos).trans (by omega)) ((floors_near_iff pos).trans (by omega))

theorem Spans.unbroken {length : R} (h : s.Spans length) (short : length ≤ 4 * v.zoom) : s.Unbroken v := by
  have ends := h.screen v
  have shorter : ((min v.width v.height : ℕ) : R) ≠ 0 :=
    Nat.cast_ne_zero.mpr (lt_min v.width_pos v.height_pos).ne'
  have sides : length / v.scale ≤ (((v.width + v.height) * 2 : ℕ) : ℤ) :=
    calc length / v.scale ≤ 4 * v.zoom / v.scale := div_le_div_of_nonneg_right short v.scale_pos.le
      _ = ((4 * min v.width v.height : ℕ) : R) := by
        have := v.zoom_pos.ne'
        rw [Viewport.scale]
        push_cast
        field_simp
      _ ≤ (((v.width + v.height) * 2 : ℕ) : ℤ) := by
        rw [Int.cast_natCast]
        exact_mod_cast (by omega : 4 * min v.width v.height ≤ (v.width + v.height) * 2)
  rw [unbroken_iff exact width_lt height_lt, v.within_corner_iff exact]
  exact ⟨(abs_floor_sub_floor_le _ _).trans (Int.ceil_le.mpr (ends.across.trans sides)),
    (abs_floor_sub_floor_le _ _).trans (Int.ceil_le.mpr (ends.down.trans sides))⟩

/-! ## Pixels in view -/

/-- The pixels that a segment is drawn over are the ones that are met and that the picture has. -/
theorem paints_iff :
    s.Paints v c p ↔ (p.column < v.width ∧ p.row < v.height) ∧ ∃ i ≤ s.strides v, s.Meets v i p := by
  have words : UInt32.size ≤ UInt64.size - 1 := by decide
  have spots : ⟨p, c⟩ ∈ s.spots v c v.width v.height ↔
      ∃ i ≤ s.strides v, ⟨p, c⟩ ∈ cornerSpots (s.met v i) c := by
    simp only [← Nat.lt_succ_iff, ← List.mem_range]
    exact List.mem_flatMap
  have met (column_lt : p.column < v.width) (row_lt : p.row < v.height) (i : ℕ) :
      ⟨p, c⟩ ∈ cornerSpots (s.met v i) c ↔ s.Meets v i p := by
    rw [met_eq exact]
    exact mem_cornerSpots exact (by omega) (by omega)
  constructor
  · rintro ⟨column_lt, row_lt, mem⟩
    simp only [spots, met column_lt row_lt] at mem
    exact ⟨⟨column_lt, row_lt⟩, mem⟩
  · rintro ⟨⟨column_lt, row_lt⟩, mem⟩
    simp only [← met column_lt row_lt, ← spots] at mem
    exact ⟨column_lt, row_lt, mem⟩

/-- Without gaps, the pixels that are met on the way from one in view to another one join them. -/
theorem reflTransGen_joins_of_le (unbroken : s.Unbroken v) (hp : s.Paints v c p)
    (hi : s.Meets v i p) (hik : i ≤ k) (last : k ≤ s.strides v) (hq : s.Paints v c q) (hk : s.Meets v k q) :
    Relation.ReflTransGen (s.Joins v c) p q := by
  induction k, hik using Nat.le_induction generalizing q with
  | base =>
    rw [hi.eq hk]
  | succ k hik ih =>
    obtain ⟨r, view, hr⟩ := exists_meets_between ⟨hp.column_lt, hp.row_lt⟩ ⟨hq.column_lt, hq.row_lt⟩ hi hk hik
      (Nat.le_succ k)
    have painted : s.Paints v c r :=
      (paints_iff exact width_lt height_lt).mpr ⟨view, k, Nat.le_of_succ_le last, hr⟩
    have touch : Within 1 (s.met v k) (s.met v (k + 1)) := unbroken k last
    rw [met_eq exact, met_eq exact, hr.1, hr.2, hk.1, hk.2] at touch
    exact (ih (Nat.le_of_succ_le last) painted hr).tail ⟨painted, hq, by simpa [Pixel.corner] using touch⟩

theorem reflTransGen_joins (unbroken : s.Unbroken v) (hp : s.Paints v c p) (hq : s.Paints v c q) :
    Relation.ReflTransGen (s.Joins v c) p q := by
  obtain ⟨-, i, hi, meets_p⟩ := (paints_iff exact width_lt height_lt).mp hp
  obtain ⟨-, k, hk, meets_q⟩ := (paints_iff exact width_lt height_lt).mp hq
  rcases le_total i k with forth | back
  · exact reflTransGen_joins_of_le exact width_lt height_lt unbroken hp meets_p forth hk hq meets_q
  · exact symm (reflTransGen_joins_of_le exact width_lt height_lt unbroken hq meets_q back hi hp meets_p)

end Limit

end Segment

/-- In exact arithmetic, the pixels that are met along a segment follow each other without a gap exactly if its
ends are not further apart than twice the sides of the picture together. Then the pixels that the segment is drawn
over are joined to each other. The axes have no gaps unless the viewport shows less of the plane than a quarter of
their length. -/
theorem unbroken_lines [FloorRing R] [IsStrictOrderedRing R] (exact : ExactRounding R) (v : Viewport R)
    (width_lt : v.width < UInt32.size) (height_lt : v.height < UInt32.size) :
    (∀ s : Segment R, s.Unbroken v ↔
      Within (((v.width + v.height) * 2 : ℕ) : R) (v.corner s.start) (v.corner s.stop)) ∧
    (∀ s : Segment R, s.Unbroken v → ∀ (c : Color UInt8) (p q : Pixel), s.Paints v c p → s.Paints v c q →
      Relation.ReflTransGen (s.Joins v c) p q) ∧
    (11 / 20 ≤ v.zoom → ∀ s ∈ axes R, s.Unbroken v) :=
  ⟨fun _ => Segment.unbroken_iff exact width_lt height_lt,
    fun _ unbroken _ _ _ hp hq => Segment.reflTransGen_joins exact width_lt height_lt unbroken hp hq,
    fun wide _ hs => (spans_of_mem_axes hs).unbroken exact width_lt height_lt (by linarith)⟩

end Segments

/-- Both axes in a view of their own length, and the pixels of the real one. -/
theorem unbroken_lines_square :
    let v : Viewport ℚ := ⟨3, 3, ⟨0, 0⟩, 11 / 5, by decide, by decide, rfl, by decide +kernel⟩
    let line : Segment ℚ := ⟨⟨-(11 / 10), 0⟩, ⟨11 / 10, 0⟩⟩
    v.width < UInt32.size ∧ v.height < UInt32.size ∧ (∀ s ∈ axes ℚ, s.Unbroken v) ∧
      Relation.ReflTransGen (line.Joins v ⟨255, 255, 255⟩) ⟨0, 1⟩ ⟨2, 1⟩ := by
  intro v line
  have width_lt : v.width < UInt32.size := by decide
  have height_lt : v.height < UInt32.size := by decide
  obtain ⟨ends, joined, wide⟩ := unbroken_lines exactRounding_rational v width_lt height_lt
  have unbroken : line.Unbroken v := (ends line).mpr ⟨by decide +kernel, by decide +kernel⟩
  refine ⟨width_lt, height_lt, wide (by decide +kernel), joined line unbroken _ _ _ ?_ ?_⟩
  · exact ⟨by decide, by decide, by decide +kernel⟩
  · exact ⟨by decide, by decide, by decide +kernel⟩

/-- In a view of a small part of the real axis, pixels that are met one after the other do not touch, and nothing of
both axes is drawn, though the real one runs through the middle of the picture. -/
theorem realAxis_missed :
    let v : Viewport ℚ := ⟨3, 3, ⟨1 / 20, 0⟩, 3 / 100, by decide, by decide, rfl, by decide +kernel⟩
    let line : Segment ℚ := ⟨⟨-(11 / 10), 0⟩, ⟨11 / 10, 0⟩⟩
    line ∈ axes ℚ ∧ 0 < line.strides v ∧ ¬Within 1 (line.met v 0) (line.met v 1) ∧
      v.pixelOf? ⟨1 / 20, 0⟩ = some ⟨1, 1⟩ ∧
      ∀ spot ∈ v.axesSpots ⟨255, 255, 255⟩ v.width v.height,
        ¬(spot.pixel.column < v.width ∧ spot.pixel.row < v.height) := by
  intro v line
  exact ⟨by decide +kernel, by decide +kernel, fun near => absurd near.across (by decide +kernel),
    by decide +kernel, by decide +kernel⟩

end Argand
