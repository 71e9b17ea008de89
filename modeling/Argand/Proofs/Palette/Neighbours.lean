import Argand.Proofs.Palette.Sampling
import Mathlib.Order.Interval.Set.UnorderedInterval
import Mathlib.RingTheory.SimpleRing.Basic
import Mathlib.Tactic.Ring

/-!
# Colors between neighbouring stops

A blend lies between the two colors it is made of exactly if its weight is between zero and one, or the colors are
the same (`Color.between_blend_iff`). The stops that blend around a place are found by its whole part, up to full
rounds, but the weight is what the place is above that stop, rounds included. So up to the end of the round the
weight is right, and at the end, where the first stop comes again, it is the number of stops
(`Scheme.blendAt_between_iff`).

In exact arithmetic no position is wrapped to the end of the round (`Scheme.exists_between_get`), but where addition
rounds there are some (`Scheme.blendAt_end`).
-/

namespace Argand

/-! ## Blends -/

namespace Color

variable {K : Type} [LinearOrder K]

/-- A color each of whose channels lies between those of two others. -/
structure Between (c a b : Color K) : Prop where
  red : c.red ∈ Set.uIcc a.red b.red
  green : c.green ∈ Set.uIcc a.green b.green
  blue : c.blue ∈ Set.uIcc a.blue b.blue

variable [CommRing K] [IsStrictOrderedRing K]

theorem channel_mem_uIcc {a b t : K} (nonneg : 0 ≤ t) (le : t ≤ 1) : a * (1 - t) + b * t ∈ Set.uIcc a b := by
  have rest : 0 ≤ 1 - t := sub_nonneg.mpr le
  rcases le_total a b with h | h
  · rw [Set.uIcc_of_le h]
    constructor <;> nlinarith
  · rw [Set.uIcc_of_ge h]
    constructor <;> nlinarith

/-- With another weight, a channel that lies between those of two colors is the same in both. -/
theorem channel_eq_of_mem_uIcc {a b t : K} (outside : ¬(0 ≤ t ∧ t ≤ 1)) (h : a * (1 - t) + b * t ∈ Set.uIcc a b) :
    a = b := by
  by_contra apart
  have weights : t * (1 - t) < 0 := by
    rcases not_and_or.mp outside with low | high
    · nlinarith
    · nlinarith
  -- the distances from both ends have one sign between them, and their product that of `t * (1 - t)`
  have square : 0 < (b - a) * (b - a) := mul_self_pos.mpr (sub_ne_zero.mpr (Ne.symm apart))
  have sides : 0 ≤ (a * (1 - t) + b * t - a) * (b - (a * (1 - t) + b * t)) := by
    rcases Set.mem_uIcc.mp h with ⟨above, below⟩ | ⟨above, below⟩
    · exact mul_nonneg (sub_nonneg.mpr above) (sub_nonneg.mpr below)
    · exact mul_nonneg_of_nonpos_of_nonpos (sub_nonpos.mpr below) (sub_nonpos.mpr above)
  have product : (a * (1 - t) + b * t - a) * (b - (a * (1 - t) + b * t)) = (b - a) * (b - a) * (t * (1 - t)) := by
    ring
  rw [product] at sides
  exact absurd sides (not_le.mpr (mul_neg_of_pos_of_neg square weights))

theorem between_blend_iff (a b : Color K) (t : K) : (a.blend b t).Between a b ↔ (0 ≤ t ∧ t ≤ 1) ∨ a = b := by
  constructor
  · rintro ⟨red, green, blue⟩
    by_cases inside : 0 ≤ t ∧ t ≤ 1
    · exact .inl inside
    · obtain ⟨ar, ag, ab⟩ := a
      obtain ⟨br, bg, bb⟩ := b
      obtain rfl : ar = br := channel_eq_of_mem_uIcc inside red
      obtain rfl : ag = bg := channel_eq_of_mem_uIcc inside green
      obtain rfl : ab = bb := channel_eq_of_mem_uIcc inside blue
      exact .inr rfl
  · rintro (⟨nonneg, le⟩ | rfl)
    · exact ⟨channel_mem_uIcc nonneg le, channel_mem_uIcc nonneg le, channel_mem_uIcc nonneg le⟩
    · have same (x : K) : x * (1 - t) + x * t ∈ Set.uIcc x x := by
        rw [← mul_add, sub_add_cancel, mul_one]
        exact Set.left_mem_uIcc
      exact ⟨same _, same _, same _⟩

end Color

namespace Scheme

/-! ## Weights -/

section Weights

variable {R K : Type} [Field R] [LinearOrder R] [IsStrictOrderedRing R] [FloorRing R] (s : Scheme K)

/-- The weight of the next stop at a place : how far the place is above the stop that is found for it, which is
counted from the start of the round. -/
def weight (w : R) : R :=
  w - (⌊w⌋₊ % s.stops.size : ℕ)

theorem weight_end : s.weight (s.stops.size : R) = s.stops.size := by
  rw [weight, Nat.floor_natCast, Nat.mod_self, Nat.cast_zero, sub_zero]

/-- In a round, the weight is a proportion but at the end. -/
theorem weight_mem_iff {w : R} (nonneg : 0 ≤ w) (le : w ≤ s.stops.size) :
    0 ≤ s.weight w ∧ s.weight w ≤ 1 ↔ w < s.stops.size ∨ s.stops.size = 1 := by
  rcases le.lt_or_eq with less | rfl
  · have inside : ⌊w⌋₊ < s.stops.size := (Nat.floor_lt nonneg).mpr less
    have below := Nat.floor_le nonneg
    have above := Nat.lt_floor_add_one w
    rw [weight, Nat.mod_eq_of_lt inside]
    exact iff_of_true ⟨by linarith, by linarith⟩ (.inl less)
  · have positive : 1 ≤ s.stops.size := s.stops_pos
    rw [weight_end, Nat.cast_le_one]
    constructor
    · rintro ⟨-, one⟩
      exact .inr (one.antisymm positive)
    · rintro (less | one)
      · exact absurd less (lt_irrefl _)
      · exact ⟨nonneg, one.le⟩

end Weights

/-! ## Places and positions -/

section Positions

variable {R K : Type} [Field R] [LinearOrder R] [IsStrictOrderedRing R] [FloorRing R] [Rounding R] [Finiteness R]
  [CommRing K] [Narrowing R K] (exact : ExactRounding R) (s : Scheme K) (room : s.stops.size < UInt64.size)
include exact room

/-- The color at a place is a blend of the stop below, in rounds, and the one that comes next. -/
theorem blendAt_eq_stop {w : R} (nonneg : 0 ≤ w) (le : w ≤ s.stops.size) :
    s.blendAt w = (s.stop ⌊w⌋₊).blend (s.stop (⌊w⌋₊ + 1)) (Narrowing.narrow (s.weight w)) := by
  have index : Rounding.toNat (Rounding.floor w) = ⌊w⌋₊ := by
    have few : ⌊w⌋₊ ≤ s.stops.size := Nat.floor_le_of_le le
    rw [exact.toNat_floor nonneg]
    omega
  simp only [blendAt, index, stop, weight, Nat.mod_add_mod]

variable [LinearOrder K] [IsStrictOrderedRing K] {ι : R →+* K} (narrows : ∀ x : R, Narrowing.narrow x = ι x)
  (mono : Monotone ι)
include narrows mono

theorem between_blendAt_iff {w : R} (nonneg : 0 ≤ w) (le : w ≤ s.stops.size) :
    (s.blendAt w).Between (s.stop ⌊w⌋₊) (s.stop (⌊w⌋₊ + 1)) ↔
      (w < s.stops.size ∨ s.stops.size = 1) ∨ s.stop ⌊w⌋₊ = s.stop (⌊w⌋₊ + 1) := by
  have strict : StrictMono ι := mono.strictMono_of_injective ι.injective
  have lower : 0 ≤ ι (s.weight w) ↔ 0 ≤ s.weight w := by
    rw [← map_zero ι, strict.le_iff_le]
  have upper : ι (s.weight w) ≤ 1 ↔ s.weight w ≤ 1 := by
    rw [← map_one ι, strict.le_iff_le]
  rw [blendAt_eq_stop exact s room nonneg le, narrows, Color.between_blend_iff, lower, upper,
    s.weight_mem_iff nonneg le]

/-- No position is wrapped to the end of a round, so every color is one between two stops. -/
theorem exists_between_get (v : R) : ∃ i, (s.get v).Between (s.stop i) (s.stop (i + 1)) := by
  have positive : (0 : R) < s.stops.size := by exact_mod_cast s.stops_pos
  have nonneg : 0 ≤ Int.fract v * s.stops.size := mul_nonneg (Int.fract_nonneg v) positive.le
  have less : Int.fract v * s.stops.size < s.stops.size := mul_lt_of_lt_one_left positive (Int.fract_lt_one v)
  refine ⟨⌊Int.fract v * s.stops.size⌋₊, ?_⟩
  rw [get_eq exact]
  exact (between_blendAt_iff exact s room narrows mono nonneg less.le).mpr (.inl (.inl less))

/-- In exact arithmetic, the weight at a place in a round is between zero and one exactly if the place is before the
end or there is one stop only. Then the color is between the two stops, and it is not otherwise, unless they are the
same. At the end the weight is the number of stops; no position is wrapped to there. -/
theorem blendAt_between_iff {w : R} (nonneg : 0 ≤ w) (le : w ≤ s.stops.size) :
    s.blendAt w = (s.stop ⌊w⌋₊).blend (s.stop (⌊w⌋₊ + 1)) (ι (s.weight w)) ∧
    (0 ≤ s.weight w ∧ s.weight w ≤ 1 ↔ w < s.stops.size ∨ s.stops.size = 1) ∧
    ((s.blendAt w).Between (s.stop ⌊w⌋₊) (s.stop (⌊w⌋₊ + 1)) ↔
      (w < s.stops.size ∨ s.stops.size = 1) ∨ s.stop ⌊w⌋₊ = s.stop (⌊w⌋₊ + 1)) ∧
    s.weight (s.stops.size : R) = s.stops.size ∧
    ∀ v : R, ∃ i, (s.get v).Between (s.stop i) (s.stop (i + 1)) := by
  have blend := blendAt_eq_stop exact s room nonneg le
  rw [narrows] at blend
  exact ⟨blend, s.weight_mem_iff nonneg le, between_blendAt_iff exact s room narrows mono nonneg le, s.weight_end,
    exists_between_get exact s room narrows mono⟩

end Positions

/-- A place between the last of three stops and the first one. -/
theorem blendAt_between_iff_last :
    let s : Scheme ℚ := ofNats "Primary" 0xFF0000 [0x00FF00, 0x0000FF] 0x000000 0xFFFFFF
    s.stops.size < UInt64.size ∧ (0 : ℚ) ≤ 5 / 2 ∧ (5 / 2 : ℚ) ≤ s.stops.size ∧
      Monotone (RingHom.id ℚ) ∧ s.weight (5 / 2 : ℚ) ≤ 1 ∧
      (s.blendAt (5 / 2 : ℚ)).Between (s.stop ⌊(5 / 2 : ℚ)⌋₊) (s.stop (⌊(5 / 2 : ℚ)⌋₊ + 1)) ∧
      ∃ i, (s.get (-1 / 100 : ℚ)).Between (s.stop i) (s.stop (i + 1)) := by
  intro s
  have room : s.stops.size < UInt64.size := by decide
  have nonneg : (0 : ℚ) ≤ 5 / 2 := by norm_num
  have size : s.stops.size = 3 := by decide
  have less : (5 / 2 : ℚ) < s.stops.size := by
    rw [size]
    norm_num
  have mono : Monotone (RingHom.id ℚ) := monotone_id
  obtain ⟨-, weights, between, -, always⟩ :=
    blendAt_between_iff exactRounding_rational s room (fun _ => rfl) mono nonneg less.le
  exact ⟨room, nonneg, less.le, mono, (weights.mpr (.inl less)).2, between.mpr (.inl (.inl less)), always _⟩

/-- A double just below zero is wrapped to the end of a round of three stops. There the color has less than nothing of
the first stop, and more than all of the second. -/
theorem blendAt_end :
    let s : Scheme ℚ := ofNats "Primary" 0xFF0000 [0x00FF00, 0x0000FF] 0x000000 0xFFFFFF
    let v : Float := .ofBits 0xBC30000000000000
    v < 0 ∧ wrap (v * 3) 3 = 3 ∧ (3 : ℚ) ≤ s.stops.size ∧ s.weight (3 : ℚ) = 3 ∧
      s.blendAt (3 : ℚ) = ⟨-2, 3, 0⟩ ∧
      ¬(s.blendAt (3 : ℚ)).Between (s.stop ⌊(3 : ℚ)⌋₊) (s.stop (⌊(3 : ℚ)⌋₊ + 1)) := by
  intro s v
  have size : s.stops.size = 3 := by decide
  have color : s.blendAt (3 : ℚ) = ⟨-2, 3, 0⟩ := by decide +kernel
  have stops : s.stop ⌊(3 : ℚ)⌋₊ = ⟨1, 0, 0⟩ ∧ s.stop (⌊(3 : ℚ)⌋₊ + 1) = ⟨0, 1, 0⟩ := by decide +kernel
  refine ⟨by decide +kernel, by decide +kernel, ?_, ?_, color, fun between => ?_⟩
  · rw [size]
    norm_num
  · exact_mod_cast size ▸ s.weight_end (R := ℚ)
  · have red := between.red
    rw [color, stops.1, stops.2, Set.mem_uIcc] at red
    norm_num at red

end Scheme

end Argand
