import Argand.Proofs.Littlewood.History
import Argand.Proofs.Point
import Mathlib.Algebra.Field.Basic
import Mathlib.Algebra.Ring.CharZero
import Mathlib.Data.Nat.Bitwise
import Mathlib.Tactic.NormNum.OfScientific

/-!
# No two estimates of a polynomial start together

Estimates that coincide would divide by zero for ever, so no polynomial may start with two of them. In
exact arithmetic the real parts of its first estimates are all different (`Tracker.restart_apart`), for
every seed, if rows are whole numbers of blocks and columns have room in a word.

The slots of a polynomial then lie in one row, in columns of their own (`Shape.coordinate_address`). The
column goes into a word that is mixed (`mixBits`), and mixing forgets nothing : to add shifted bits can be
undone from the highest bit down (`xor_shiftRight_injective`), and to multiply with an odd word can be undone
by its inverse. At last words are spread over an interval by dividing and scaling, which takes different
words to different numbers (`spread_injective`).
-/

namespace Argand.Littlewood

/-! ## Mixing -/

/-- Two numbers with the same sum, without carry, of themselves and their shifted bits differ in bits that
are their own shifted ones, so in none. -/
theorem xor_shiftRight_injective {n : ℕ} (pos : 0 < n) : Function.Injective fun x : ℕ => x ^^^ x >>> n := by
  intro x y (same : x ^^^ x >>> n = y ^^^ y >>> n)
  have shifted : (x ^^^ y) >>> n = x ^^^ y := by
    calc (x ^^^ y) >>> n = x >>> n ^^^ y >>> n := Nat.shiftRight_xor_distrib
      _ = x ^^^ (x ^^^ x >>> n) ^^^ y >>> n := by rw [Nat.xor_xor_cancel_left]
      _ = x ^^^ (y ^^^ y >>> n) ^^^ y >>> n := by rw [same]
      _ = x ^^^ y := by rw [← Nat.xor_assoc, Nat.xor_xor_cancel_right]
  have none : x ^^^ y = 0 := by
    by_contra some
    rw [Nat.shiftRight_eq_div_pow] at shifted
    have smaller := Nat.div_lt_self (Nat.pos_of_ne_zero some) (Nat.one_lt_two_pow pos.ne')
    omega
  exact Nat.eq_of_xor_eq_zero none

theorem word_xor_shiftRight_injective {n : UInt32} (pos : 0 < n.toNat % 32) :
    Function.Injective fun x : UInt32 => x ^^^ x >>> n := by
  intro x y same
  have same := congrArg UInt32.toNat same
  simp only [UInt32.toNat_xor, UInt32.toNat_shiftRight] at same
  exact UInt32.toNat_inj.mp (xor_shiftRight_injective pos same)

theorem word_mul_injective {c inverse : UInt32} (h : c * inverse = 1) :
    Function.Injective fun x : UInt32 => x * c := by
  have undo : ∀ x, x * c * inverse = x := by
    intro x
    rw [UInt32.mul_assoc, h, UInt32.mul_one]
  intro x y (same : x * c = y * c)
  rw [← undo x, same, undo]

theorem mixBits_injective : Function.Injective mixBits := by
  have byHalf := word_xor_shiftRight_injective (n := 16) (by decide)
  have byFifteen := word_xor_shiftRight_injective (n := 15) (by decide)
  have first := word_mul_injective (show (0x7FEB352D : UInt32) * 0x1D69E2A5 = 1 by decide)
  have second := word_mul_injective (show (0x846CA68B : UInt32) * 0x43021123 = 1 by decide)
  exact byHalf.comp (second.comp (byFifteen.comp (first.comp byHalf)))

/-! ## Spreading -/

section Spreading

variable {R : Type} [Field R] [CharZero R]

theorem spread_injective : Function.Injective (spread : UInt32 → R) := by
  intro v w same
  have greatest : ((4294967295 : ℕ) : R) ≠ 0 := Nat.cast_ne_zero.mpr (by decide)
  have two : (2.0 : R) ≠ 0 := by norm_num
  have parts := mul_left_cancel₀ two (sub_left_injective (mul_left_cancel₀ two same))
  exact UInt32.toNat_inj.mp (Nat.cast_injective ((div_left_inj' greatest).mp parts))

/-- In different columns of a row estimates start with different real parts. -/
theorem re_seedPoint_injOn (row : ℕ) (seed : UInt32) :
    Set.InjOn (fun column => (seedPoint row column seed : Point R).re) {column | column < 2 ^ 32} := by
  intro column hc column' hc' same
  have mixed := (UInt32.xor_left_inj _).mp (mixBits_injective (spread_injective same))
  have : column.toUInt32.toNat = column := UInt32.toNat_ofNat_of_lt' hc
  have : column'.toUInt32.toNat = column' := UInt32.toNat_ofNat_of_lt' hc'
  have := congrArg UInt32.toNat mixed
  omega

end Spreading

/-! ## Rows of blocks -/

/-- If a row is some number of blocks, a block lies in one row. -/
theorem Shape.coordinate_address (s : Shape) {blocks id k : ℕ} (width : s.width = s.maxDegree * blocks)
    (hk : k < s.maxDegree) :
    s.coordinate (s.address id k) = (id / blocks, s.maxDegree * (id % blocks) + k) := by
  rw [coordinate, width, ← Nat.div_div_eq_div_mul, Nat.mod_mul, s.address_div hk, s.address_mod hk,
    Nat.add_comm]

/-! ## The first estimates -/

namespace Tracker

variable {R : Type} [Field R] [CharZero R] [LT R] [Finiteness R]

/-- After any start, from whatever seed the tracker has, two slots of a polynomial hold estimates with
different real parts, if the rows of the table are whole numbers of blocks and columns have room in a word.
Without columns no address has a coordinate to start from. -/
theorem restart_apart (t : Tracker R) (full : t.table.size = t.shape.slots) (columns : t.shape.hasColumns)
    (aligned : t.shape.maxDegree ∣ t.shape.width) (narrow : t.shape.width ≤ 2 ^ 32) {id j k : ℕ}
    (polynomial : id < t.shape.polynomials) (hj : j < t.shape.maxDegree) (hk : k < t.shape.maxDegree)
    (apart : j ≠ k) :
    ∃ z w, t.restart.table[t.shape.address id j]? = some z ∧
      t.restart.table[t.shape.address id k]? = some w ∧ z.re ≠ w.re := by
  obtain ⟨blocks, width⟩ := aligned
  have first : ∀ i < t.shape.maxDegree, t.restart.table[t.shape.address id i]? =
      some (seedPoint (id / blocks) (t.shape.maxDegree * (id % blocks) + i) t.seed) := by
    intro i hi
    have present := t.shape.address_lt_slots polynomial hi
    rw [(hasRefined_restart t full).table_eq, estimates, Shape.seeded, Array.getElem?_ofFn, dif_pos present,
      t.shape.coordinate_address width hi]
  have room : ∀ i < t.shape.maxDegree, t.shape.maxDegree * (id % blocks) + i < 2 ^ 32 := by
    intro i hi
    have column : (t.shape.coordinate (t.shape.address id i)).2 < t.shape.width :=
      Nat.mod_lt _ (of_decide_eq_true columns)
    rw [t.shape.coordinate_address width hi] at column
    omega
  refine ⟨_, _, first j hj, first k hk, fun same => apart ?_⟩
  have := re_seedPoint_injOn (id / blocks) t.seed (room j hj) (room k hk) same
  omega

/-- The last polynomial of the usual table. -/
theorem restart_apart_usual :
    let viewport : Viewport ℚ := ⟨7, 4, 0, 6, by decide, by decide, rfl, by decide⟩
    let t : Tracker ℚ := .new viewport 42 .usual (.ofNat 3)
    t.table.size = t.shape.slots ∧ t.shape.hasColumns ∧ t.shape.maxDegree ∣ t.shape.width ∧
      t.shape.width ≤ 2 ^ 32 ∧ 131071 < t.shape.polynomials ∧ 3 < t.shape.maxDegree ∧
      14 < t.shape.maxDegree ∧
      ∃ z w, t.restart.table[t.shape.address 131071 3]? = some z ∧
        t.restart.table[t.shape.address 131071 14]? = some w ∧ z.re ≠ w.re := by
  intro viewport t
  have full : t.table.size = t.shape.slots := (hasRefined_new viewport 42 .usual (.ofNat 3)).size_table
  have shape : t.shape = .usual := rfl
  clear_value t
  have columns : t.shape.hasColumns := shape ▸ by decide
  have aligned : t.shape.maxDegree ∣ t.shape.width := shape ▸ by decide
  have narrow : t.shape.width ≤ 2 ^ 32 := shape ▸ by decide
  have polynomial : 131071 < t.shape.polynomials := shape ▸ by decide
  have hj : 3 < t.shape.maxDegree := shape ▸ by decide
  have hk : 14 < t.shape.maxDegree := shape ▸ by decide
  exact ⟨full, columns, aligned, narrow, polynomial, hj, hk,
    restart_apart t full columns aligned narrow polynomial hj hk (by decide)⟩

end Tracker

end Argand.Littlewood
