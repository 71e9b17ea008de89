import Argand.Palette.Named
import Argand.Proofs.Rounding
import Mathlib.Tactic.NormNum

/-!
# Samples of color schemes

A color scheme and its table of samples both give a color to a position by the fraction of it. The scheme blends the
stops around the fraction (`get_eq`), and the table blends the colors that it has from the scheme (`sample_eq`). If
there are no more stops than the table has room for, those colors are the stops, so the table is the scheme; if there
are more, it agrees with the scheme where it was taken, and between two such places it goes from one color to the
other in proportion (`Scheme.sample_agrees`).

The arithmetic is exact, and channels are numbers by a homomorphism from those of positions.
-/

namespace Argand

namespace Color

variable {K : Type} [CommRing K] (a b : Color K)

@[simp] theorem blend_zero : a.blend b 0 = a := by
  simp [blend]

@[simp] theorem blend_one : a.blend b 1 = b := by
  simp [blend]

end Color

namespace Scheme

/-! ## Stops -/

/-- The stop at a whole number, when the first one comes again after the last. -/
def stop {K : Type} (s : Scheme K) (i : ℕ) : Color K :=
  have inside : i % s.stops.size < s.stops.size := Nat.mod_lt _ s.stops_pos
  s.stops[i % s.stops.size]

theorem stop_mod {K : Type} (s : Scheme K) (i : ℕ) : s.stop (i % s.stops.size) = s.stop i := by
  simp only [stop, Nat.mod_mod]

/-- The color at a place among the stops is a blend of the stop below and the one that comes next. -/
theorem blendAt_eq {R K : Type} [Ring R] [Rounding R] [CommRing K] [Narrowing R K] (s : Scheme K) (w : R) {i : ℕ}
    (floor : Rounding.toNat (Rounding.floor w) = i) (inside : i < s.stops.size) :
    s.blendAt w = (s.stop i).blend (s.stop (i + 1)) (Narrowing.narrow (w - i)) := by
  simp only [blendAt, floor, Nat.mod_eq_of_lt inside, stop]

section Samples

variable {R K : Type} [Field R] [LinearOrder R] [IsStrictOrderedRing R] [FloorRing R] [Rounding R] [Finiteness R]
  [CommRing K] [Narrowing R K] (exact : ExactRounding R) (s : Scheme K)
include exact

theorem toNat_floor_small {x : R} (h : 0 ≤ x) {i : ℕ} (floor : ⌊x⌋₊ = i) (few : i ≤ 17) :
    Rounding.toNat (Rounding.floor x) = i := by
  have room : 17 < UInt64.size - 1 := by decide
  exact (exact.toNat_floor_eq_iff h (few.trans_lt room)).mpr ((Nat.floor_eq_iff h).mp floor)

/-! ## Colors of the scheme -/

theorem get_eq (v : R) : s.get v = s.blendAt (Int.fract v * s.stops.size) := by
  have positive : (0 : R) < s.stops.size := by exact_mod_cast s.stops_pos
  rw [get, exact.wrap_eq _ positive, mul_div_cancel_right₀ v positive.ne', mul_comm]

theorem get_one : s.get (1 : R) = s.get (0 : R) := by
  rw [get_eq exact, get_eq exact, Int.fract_one, Int.fract_zero]

/-! ## Colors of the table -/

/-- A sample is a blend of two colors that the scheme has at even distances. -/
theorem sample_eq {v : R} (h : 0 ≤ v) {i : ℕ} (floor : ⌊Int.fract v * s.intervals⌋₊ = i) (inside : i < s.intervals) :
    s.sample v = (s.get ((i : R) / s.intervals)).blend (s.get (((i + 1 : ℕ) : R) / s.intervals))
      (Narrowing.narrow (Int.fract v * s.intervals - i)) := by
  have few : s.intervals ≤ 17 := Nat.min_le_right ..
  have fraction : v - Rounding.floor v = Int.fract v := by rw [exact.floor_eq, Int.fract]
  have place_nonneg : 0 ≤ Int.fract v * s.intervals := mul_nonneg (Int.fract_nonneg v) (Nat.cast_nonneg _)
  have index := toNat_floor_small exact place_nonneg floor (by omega)
  have number : ¬(v < 0 || Finiteness.isNaN v) = true := by
    simp [exact.isNaN_eq, h]
  have last : min i (s.intervals - 1) = i := by omega
  rw [sample, sampleIn, if_neg number]
  simp only [sampled, Vector.getElem_ofFn, fraction, index, last]

variable {ι : R →+* K} (narrows : ∀ x : R, Narrowing.narrow x = ι x)
include narrows

/-- The color of a few stops at an even distance is a stop. -/
theorem get_div (few : s.stops.size ≤ 17) (i : ℕ) : s.get ((i : R) / s.stops.size) = s.stop i := by
  have inside := Nat.mod_lt i s.stops_pos
  have positive : (0 : R) < s.stops.size := by exact_mod_cast s.stops_pos
  have place : Int.fract ((i : R) / s.stops.size) * s.stops.size = (i % s.stops.size : ℕ) := by
    rw [Int.fract_div_natCast_eq_div_natCast_mod, div_mul_cancel₀ _ positive.ne']
  have index : Rounding.toNat (Rounding.floor ((i % s.stops.size : ℕ) : R)) = i % s.stops.size :=
    toNat_floor_small exact (Nat.cast_nonneg _) (Nat.floor_natCast _) (by omega)
  rw [get_eq exact, place, s.blendAt_eq _ index inside, sub_self, narrows, map_zero, Color.blend_zero, s.stop_mod]

/-- A table that has room for all stops is the scheme. -/
theorem sample_eq_get (few : s.stops.size ≤ 17) {v : R} (h : 0 ≤ v) : s.sample v = s.get v := by
  have intervals : s.intervals = s.stops.size := min_eq_left few
  have positive : (0 : R) < s.stops.size := by exact_mod_cast s.stops_pos
  have place_nonneg : 0 ≤ Int.fract v * s.stops.size := mul_nonneg (Int.fract_nonneg v) positive.le
  have place_lt : Int.fract v * s.stops.size < s.stops.size :=
    mul_lt_of_lt_one_left positive (Int.fract_lt_one v)
  have inside : ⌊Int.fract v * s.stops.size⌋₊ < s.stops.size := (Nat.floor_lt place_nonneg).mpr place_lt
  have index := toNat_floor_small exact place_nonneg rfl (by omega)
  rw [sample_eq exact s h (by rw [intervals]) (by rw [intervals]; exact inside), intervals,
    get_div exact s narrows few, get_div exact s narrows few, get_eq exact,
    s.blendAt_eq _ index inside]

/-- Between two places where the table was taken, a sample is on the way from one color to the other. -/
theorem sample_between (m : ℕ) {i : ℕ} (inside : i < s.intervals) {t : R} (t_nonneg : 0 ≤ t) (t_lt : t < 1) :
    s.sample ((m : R) + (i + t) / s.intervals) =
      (s.get ((i : R) / s.intervals)).blend (s.get (((i + 1 : ℕ) : R) / s.intervals)) (ι t) := by
  have positive : (0 : R) < s.intervals := by exact_mod_cast s.intervals_pos
  have place_nonneg : 0 ≤ (i : R) + t := add_nonneg (Nat.cast_nonneg i) t_nonneg
  have place_lt : (i : R) + t < s.intervals :=
    calc (i : R) + t < i + 1 := add_lt_add_right t_lt i
      _ ≤ s.intervals := by exact_mod_cast inside
  have fraction : Int.fract ((m : R) + (i + t) / s.intervals) = (i + t) / s.intervals := by
    rw [Int.fract_natCast_add, Int.fract_eq_self]
    exact ⟨div_nonneg place_nonneg positive.le, (div_lt_one positive).mpr place_lt⟩
  have place : Int.fract ((m : R) + (i + t) / s.intervals) * s.intervals = i + t := by
    rw [fraction, div_mul_cancel₀ _ positive.ne']
  have floor : ⌊(i : R) + t⌋₊ = i :=
    (Nat.floor_eq_iff place_nonneg).mpr ⟨le_add_of_nonneg_right t_nonneg, add_lt_add_right t_lt i⟩
  have position : 0 ≤ (m : R) + (i + t) / s.intervals :=
    add_nonneg (Nat.cast_nonneg m) (div_nonneg place_nonneg positive.le)
  rw [sample_eq exact s position (by rw [place, floor]) inside, place, add_sub_cancel_left, narrows]

/-- Where the table was taken from the scheme, it agrees with it. -/
theorem sample_at (m : ℕ) {i : ℕ} (inside : i ≤ s.intervals) :
    s.sample ((m : R) + i / s.intervals) = s.get ((i : R) / s.intervals) := by
  have start (m : ℕ) {i : ℕ} (inside : i < s.intervals) :
      s.sample ((m : R) + i / s.intervals) = s.get ((i : R) / s.intervals) := by
    have first := sample_between exact s narrows m inside le_rfl zero_lt_one
    rwa [add_zero, map_zero, Color.blend_zero] at first
  rcases inside.lt_or_eq with less | rfl
  · exact start m less
  · have positive : (0 : R) < s.intervals := by exact_mod_cast s.intervals_pos
    have next := start (m + 1) s.intervals_pos
    rw [Nat.cast_zero, zero_div, add_zero, Nat.cast_add, Nat.cast_one] at next
    rw [div_self positive.ne', get_one exact, next]

/-- In exact arithmetic, a scheme with at most seventeen stops has its colors as samples. Whatever the number of
stops, the samples agree with the scheme at even distances, in every round, and in between they go from one such
color to the next in proportion. -/
theorem sample_agrees :
    (s.stops.size ≤ 17 → ∀ v : R, 0 ≤ v → s.sample v = s.get v) ∧
    (∀ m i : ℕ, i ≤ s.intervals → s.sample ((m : R) + i / s.intervals) = s.get ((i : R) / s.intervals)) ∧
    ∀ m i : ℕ, i < s.intervals → ∀ t : R, 0 ≤ t → t ≤ 1 →
      s.sample ((m : R) + (i + t) / s.intervals) =
        (s.sample ((m : R) + i / s.intervals)).blend (s.sample ((m : R) + (i + 1) / s.intervals)) (ι t) := by
  refine ⟨fun few v h => sample_eq_get exact s narrows few h, fun m i => sample_at exact s narrows m, ?_⟩
  intro m i inside t t_nonneg t_le
  have left := sample_at exact s narrows m inside.le
  have right := sample_at exact s narrows m (Nat.succ_le_of_lt inside)
  rw [Nat.cast_succ] at right
  rcases t_le.lt_or_eq with less | rfl
  · rw [sample_between exact s narrows m inside t_nonneg less, left, right, Nat.cast_succ]
  · rw [map_one, Color.blend_one]

end Samples

/-- A scheme whose stops are the table, and one with more stops than a table has room for. -/
theorem sample_agrees_rational :
    let few : Scheme ℚ := gray
    let many : Scheme ℚ := ofNats "Many" 0 ((List.range 19).map (4096 * ·)) 0 0
    few.stops.size ≤ 17 ∧ (0 : ℚ) ≤ 9 / 4 ∧ few.sample (9 / 4 : ℚ) = few.get (9 / 4 : ℚ) ∧
      16 < many.intervals ∧ many.sample ((3 : ℕ) + (16 : ℕ) / many.intervals : ℚ) = many.get (16 / 17 : ℚ) ∧
      many.sample ((3 : ℕ) + ((16 : ℕ) + 1 / 3) / many.intervals : ℚ) =
        (many.sample ((3 : ℕ) + (16 : ℕ) / many.intervals : ℚ)).blend
          (many.sample ((3 : ℕ) + ((16 : ℕ) + 1) / many.intervals : ℚ)) (1 / 3) := by
  intro few many
  have narrows : ∀ x : ℚ, Narrowing.narrow x = RingHom.id ℚ x := fun _ => rfl
  have stops : few.stops.size ≤ 17 := by decide
  have position : (0 : ℚ) ≤ 9 / 4 := by norm_num
  have inside : 16 < many.intervals := by decide
  obtain ⟨same, -, -⟩ := sample_agrees exactRounding_rational few narrows
  obtain ⟨-, distances, between⟩ := sample_agrees exactRounding_rational many narrows
  exact ⟨stops, position, same stops _ position, inside, distances 3 16 inside.le,
    between 3 16 inside (1 / 3) (by norm_num) (by norm_num)⟩

end Scheme

end Argand
