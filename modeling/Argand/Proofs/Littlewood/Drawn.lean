import Argand.Proofs.Littlewood.History
import Argand.Proofs.Littlewood.Words

/-!
# Every root is drawn once

A `Tracker` draws the estimates of one degree after those of another. Put one after the other, these are the `dots`
of a table : the slots in use of all polynomials, each of them once, and those of higher degrees first
(`mem_dots`, `nodup_dots`, `pairwise_dots`). The polynomials of a degree are those between two powers of two. All of
them are in the table, so that it need not be asked how many it has (`polynomialsOf_eq`), and none of them need be
asked for its degree (`degree_of_mem_polynomialsOf`).

So a picture of a tracker is its backdrop with a dot for each of these slots, in the size and the color of the
degree, and the block of every polynomial lies in the table (`Engine.render_plots_roots`).
-/

namespace Argand

namespace Littlewood

namespace Tracker

/-! ## Polynomials -/

section Polynomials

variable {s : Shape} {d id : ℕ}

/-- The polynomials of a table that have slots in use, in the order in which they are drawn. -/
def drawn (s : Shape) : List ℕ :=
  (degrees s).flatMap (polynomialsOf s)

theorem mem_degrees : d ∈ degrees s ↔ 1 ≤ d ∧ d < s.maxDegree := by
  rw [degrees, List.mem_reverse, List.mem_range'_1]
  omega

theorem pairwise_degrees (s : Shape) : (degrees s).Pairwise (· > ·) := by
  rw [degrees, List.pairwise_reverse]
  exact List.pairwise_lt_range' 1

/-- All polynomials of a degree are in a table with slots for it. -/
theorem polynomialsOf_eq (hd : d < s.maxDegree) : polynomialsOf s d = List.range' (2 ^ (d + 1)) (2 ^ (d + 1)) := by
  have enough : Nat.pow 2 (d + 2) ≤ s.polynomials := Nat.pow_le_pow_right (by decide) (by omega)
  have double : Nat.pow 2 (d + 2) = 2 ^ (d + 1) + 2 ^ (d + 1) := (pow_succ 2 (d + 1)).trans (Nat.mul_two _)
  rw [polynomialsOf, Nat.min_eq_left enough, double, Nat.pow_eq, Nat.add_sub_cancel]

theorem mem_polynomialsOf (hd : d < s.maxDegree) : id ∈ polynomialsOf s d ↔ 2 ^ (d + 1) ≤ id ∧ id < 2 ^ (d + 2) := by
  rw [polynomialsOf_eq hd, List.mem_range'_1, pow_succ 2 (d + 1), Nat.mul_two]

theorem lt_polynomials_of_mem (hd : d < s.maxDegree) (hid : id ∈ polynomialsOf s d) : id < s.polynomials :=
  ((mem_polynomialsOf hd).mp hid).2.trans_le (Nat.pow_le_pow_right (by decide) (by omega))

/-- What is drawn for a degree are the polynomials of that degree. -/
theorem degree_of_mem_polynomialsOf (room : s.maxDegree ≤ 30) (hd : d ∈ degrees s) (hid : id ∈ polynomialsOf s d) :
    degree id.toUInt32 = d := by
  have below := (mem_degrees.mp hd).2
  have between := (mem_polynomialsOf below).mp hid
  have most : 2 ^ (d + 2) ≤ UInt32.size := Nat.pow_le_pow_right (by decide : 0 < 2) (by omega : d + 2 ≤ 32)
  rwa [degree_eq_iff, Nat.toUInt32, UInt32.toNat_ofNat_of_lt' (between.2.trans_le most)]

/-- The polynomials that are drawn are those with slots in use. -/
theorem mem_drawn (room : s.maxDegree ≤ 30) : id ∈ drawn s ↔ id < s.polynomials ∧ 0 < degree id.toUInt32 := by
  rw [drawn, List.mem_flatMap]
  constructor
  · rintro ⟨d, hd, hid⟩
    obtain ⟨positive, below⟩ := mem_degrees.mp hd
    rw [degree_of_mem_polynomialsOf room hd hid]
    exact ⟨lt_polynomials_of_mem below hid, by omega⟩
  · rintro ⟨hid, positive⟩
    obtain ⟨d, hd⟩ := Int.eq_ofNat_of_zero_le positive.le
    have most : s.polynomials ≤ UInt32.size :=
      Nat.pow_le_pow_right (by decide : 0 < 2) (by omega : s.maxDegree + 1 ≤ 32)
    have between := degree_eq_iff.mp hd
    rw [Nat.toUInt32, UInt32.toNat_ofNat_of_lt' (hid.trans_le most)] at between
    have below : d + 1 < s.maxDegree + 1 := (Nat.pow_lt_pow_iff_right (by decide)).mp (between.1.trans_lt hid)
    exact ⟨d, mem_degrees.mpr (by omega), (mem_polynomialsOf (by omega)).mpr between⟩

/-- No polynomial is drawn twice, since it has one degree. -/
theorem nodup_drawn (room : s.maxDegree ≤ 30) : (drawn s).Nodup := by
  rw [drawn, List.nodup_flatMap]
  refine ⟨fun d _ => List.nodup_range' 1, (pairwise_degrees s).imp_of_mem ?_⟩
  intro d d' hd hd' less id first second
  have : (d : ℤ) = d' := (degree_of_mem_polynomialsOf room hd first).symm.trans
    (degree_of_mem_polynomialsOf room hd' second)
  omega

theorem pairwise_drawn (room : s.maxDegree ≤ 30) :
    (drawn s).Pairwise fun earlier later => degree later.toUInt32 ≤ degree earlier.toUInt32 := by
  rw [drawn, List.pairwise_flatMap]
  constructor
  · intro d hd
    refine List.pairwise_of_forall_mem_list fun earlier h later h' => ?_
    rw [degree_of_mem_polynomialsOf room hd h, degree_of_mem_polynomialsOf room hd h']
  · refine (pairwise_degrees s).imp_of_mem fun {d d'} hd hd' less earlier h later h' => ?_
    rw [degree_of_mem_polynomialsOf room hd h, degree_of_mem_polynomialsOf room hd' h']
    exact_mod_cast less.le

end Polynomials

/-! ## Dots -/

section Dots

variable {s : Shape} {id k : ℕ}

/-- The slots in use of a polynomial. -/
def slotsInUse (id : ℕ) : List (ℕ × ℕ) :=
  (List.range (degree id.toUInt32).toNat).map (id, ·)

/-- The slots in use of all polynomials of a table, in the order in which their dots are drawn. -/
def dots (s : Shape) : List (ℕ × ℕ) :=
  (drawn s).flatMap slotsInUse

theorem mem_slotsInUse {slot : ℕ × ℕ} : slot ∈ slotsInUse id ↔ slot.1 = id ∧ (slot.2 : ℤ) < degree id.toUInt32 := by
  obtain ⟨id', k⟩ := slot
  simp only [slotsInUse, List.mem_map, List.mem_range, Prod.mk.injEq, Int.lt_toNat]
  constructor
  · rintro ⟨_, hk, rfl, rfl⟩
    exact ⟨rfl, hk⟩
  · rintro ⟨rfl, hk⟩
    exact ⟨k, hk, rfl, rfl⟩

/-- There are dots for the slots in use of all polynomials, and for no other slots. -/
theorem mem_dots (room : s.maxDegree ≤ 30) :
    (id, k) ∈ dots s ↔ id < s.polynomials ∧ (k : ℤ) < degree id.toUInt32 := by
  simp only [dots, List.mem_flatMap, mem_drawn room, mem_slotsInUse]
  constructor
  · rintro ⟨_, ⟨hid, -⟩, rfl, hk⟩
    exact ⟨hid, hk⟩
  · rintro ⟨hid, hk⟩
    exact ⟨id, ⟨hid, by omega⟩, rfl, hk⟩

/-- No slot has two dots. -/
theorem nodup_dots (room : s.maxDegree ≤ 30) : (dots s).Nodup := by
  rw [dots, List.nodup_flatMap]
  refine ⟨fun id _ => List.nodup_range.map (Prod.mk_right_injective id), (nodup_drawn room).imp ?_⟩
  intro id id' apart slot first second
  exact apart ((mem_slotsInUse.mp first).1.symm.trans (mem_slotsInUse.mp second).1)

theorem pairwise_dots (room : s.maxDegree ≤ 30) :
    (dots s).Pairwise fun earlier later => degree later.1.toUInt32 ≤ degree earlier.1.toUInt32 := by
  rw [dots, List.pairwise_flatMap]
  constructor
  · intro id _
    refine List.pairwise_of_forall_mem_list fun earlier h later h' => ?_
    rw [(mem_slotsInUse.mp h).1, (mem_slotsInUse.mp h').1]
  · refine (pairwise_drawn room).imp fun {id id'} less earlier h later h' => ?_
    rwa [(mem_slotsInUse.mp h).1, (mem_slotsInUse.mp h').1]

end Dots

/-! ## Pictures -/

section Blocks

variable {R : Type} [Zero R] [LT R] [Finiteness R]

/-- The estimate in a slot of a polynomial. -/
def estimateAt (t : Tracker R) (id k : ℕ) : Point R :=
  t.table.getD (t.shape.address id k) 0

/-- The slots in use of every polynomial lie in the table. -/
theorem rootsOf?_eq (t : Tracker R) (room : t.shape.maxDegree ≤ 30) (size : t.table.size = t.shape.slots) {id : ℕ}
    (hid : id < t.shape.polynomials) :
    t.rootsOf? id = some (.ofFn fun k : Fin (degree id.toUInt32).toNat => t.estimateAt id k) := by
  have inside : ∀ k < (degree id.toUInt32).toNat, t.shape.address id k < t.table.size := by
    intro k hk
    rw [size]
    exact t.shape.address_lt_slots hid (lt_maxDegree_of_lt_degree room hid hk)
  have last_le : t.shape.address id 0 + (degree id.toUInt32).toNat ≤ t.table.size := by
    cases slots : (degree id.toUInt32).toNat with
    | zero =>
      rw [size]
      exact Nat.mul_le_mul_right _ hid.le
    | succ k => exact inside k (by omega)
  rw [rootsOf?, if_pos last_le, Option.some.injEq]
  apply Array.ext
  · rw [Array.size_extract, Array.size_ofFn]
    omega
  · intro k _ hk
    rw [Array.size_ofFn] at hk
    rw [Array.getElem_extract, Array.getElem_ofFn, estimateAt, Array.getD_eq_getD_getElem?,
      Array.getElem?_eq_getElem (inside k hk), Option.getD_some]
    rfl

end Blocks

section Drawing

variable {R K : Type} [Zero R] [LT R] [DecidableLT R] [LE R] [DecidableLE R] [Finiteness R] [Add R] [Sub R]
  [Mul R] [Div R] [Neg R] [NatCast R] [OfScientific R] [Rounding R] [Narrowing R K] [Add K] [Sub K] [Mul K] [One K]
  [Channel K]

/-- Draws the dot for a slot of a polynomial, in the size and the color of the degree of the polynomial. -/
def plotDot (t : Tracker R) (scheme : Scheme K) (target : Picture) (slot : ℕ × ℕ) : Picture :=
  let d := (degree slot.1.toUInt32).toNat
  plot t.viewport (t.estimateAt slot.1 slot.2) (dotSize t.shape d)
    (scheme.sample ((d : R) / (t.shape.maxDegree : R))).toBytes target

/-- The dots of one polynomial after those of another. -/
theorem drawRoots_eq (t : Tracker R) (room : t.shape.maxDegree ≤ 30) (size : t.table.size = t.shape.slots)
    (scheme : Scheme K) (target : Picture) :
    t.drawRoots scheme target = (dots t.shape).foldl (t.plotDot scheme) target := by
  rw [drawRoots, dots, drawn, List.foldl_flatMap, List.foldl_flatMap]
  refine List.foldl_ext _ _ _ fun target d hd => List.foldl_ext _ _ _ fun target id hid => ?_
  have below := (mem_degrees.mp hd).2
  have listed : (Array.ofFn fun k : Fin (degree id.toUInt32).toNat => t.estimateAt id k).toList =
      (List.range (degree id.toUInt32).toNat).map (t.estimateAt id) := by
    apply List.ext_getElem <;> simp
  rw [t.rootsOf?_eq room size (lt_polynomials_of_mem below hid), slotsInUse, List.foldl_map]
  simp only [← Array.foldl_toList, listed, List.foldl_map, plotDot, degree_of_mem_polynomialsOf room hd hid]
  rfl

end Drawing

end Tracker

end Littlewood

namespace Engine

open Littlewood Tracker

/-- After any history, the picture of a tracker is its backdrop with a dot for every slot in use, below the axes if
there are any : each slot has one dot, of the size and the color of the degree of its polynomial, and the dots of
higher degrees come first. The slots in use of every polynomial lie in the table. -/
theorem render_plots_roots (viewport : Viewport Float) (seed : UInt32) (shape : Shape) (workers : Workers)
    (history : List Command) (room : shape.maxDegree ≤ 30) :
    (dots shape).Nodup ∧
    (∀ id k : ℕ, (id, k) ∈ dots shape ↔ id < shape.polynomials ∧ (k : ℤ) < degree id.toUInt32) ∧
    (dots shape).Pairwise (fun earlier later => degree later.1.toUInt32 ≤ degree earlier.1.toUInt32) ∧
    ∃ t, (littlewood (.new viewport seed shape workers)).obeyAll history = littlewood t ∧ t.shape = shape ∧
      (∀ id < shape.polynomials,
        t.rootsOf? id = some (.ofFn fun k : Fin (degree id.toUInt32).toNat => t.estimateAt id k)) ∧
      ∀ (scheme : Scheme Float32) (target : Picture),
        (littlewood t).render scheme target =
          let picture := (dots shape).foldl (t.plotDot scheme) (t.drawBackdrop scheme target)
          if t.axes then t.viewport.drawAxes scheme.axes.toBytes picture else picture := by
  obtain ⟨t, obeyed, refined⟩ := hasRefined_obeyAll (hasRefined_new viewport seed shape workers) history
  have size := refined.size_table
  obtain rfl := refined.shape_eq
  refine ⟨nodup_dots room, fun id k => mem_dots room, pairwise_dots room, t, obeyed, rfl, ?_, ?_⟩
  · exact fun id hid => t.rootsOf?_eq room size hid
  · intro scheme target
    show t.render scheme target = _
    rw [Tracker.render, t.drawRoots_eq room size]

/-- The polynomials up to degree two, after a pass, a new seed and moves of which one fails. -/
theorem render_plots_roots_quadratic :
    let viewport : Viewport Float :=
      ⟨5, 4, 0, 7, by decide, by decide, by decide +kernel, by decide +kernel⟩
    let shape : Shape := ⟨3, 8⟩
    let history : List Command := [.advance, .resize 0 5, .reseed 7, .setView 0 1, .setAxes true, .advance]
    shape.maxDegree ≤ 30 ∧ (7, 0) ∈ dots shape ∧ (7, 1) ∉ dots shape ∧
      ∃ t, (littlewood (.new viewport 42 shape (.ofNat 2))).obeyAll history = littlewood t ∧
        t.rootsOf? 13 = some #[t.estimateAt 13 0, t.estimateAt 13 1] := by
  intro viewport shape history
  have room : shape.maxDegree ≤ 30 := by decide
  obtain ⟨-, inUse, -, t, obeyed, -, blocks, -⟩ := render_plots_roots viewport 42 shape (.ofNat 2) history room
  refine ⟨room, (inUse 7 0).mpr (by decide), fun h => absurd ((inUse 7 1).mp h) (by decide), t, obeyed, ?_⟩
  exact blocks 13 (by decide)

end Engine

end Argand
