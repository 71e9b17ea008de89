import Argand.Proofs.Orbit.History

/-!
# Orbits that stay in the disk

The counter of a cell goes down by one with every update, and is negative for as long as the orbit is not found
outside the disk. But it has thirty-two bits, and nothing bounds the number of updates. An orbit that stays in the
disk for ever can be granted exactly the updates that the counter has room for (`Cell.resume?_start_eq_none`), which
is `roomyBatches` batches. The next batch fails, and so does every later one.

So after any history a pixel of such an orbit has the exact count of at most that many batches, and another batch
fails exactly if there have been as many since the last start (`Progressive.toInt_counts_inside`).
-/

namespace Argand

variable {R : Type} [Zero R] [LT R] [DecidableLT R] [Finiteness R] [Add R] [Sub R] [Mul R] [Div R]
  [NatCast R] [OfScientific R]

/-- No update takes an orbit outside the disk. -/
def Point.StaysInside (c z : Point R) : Prop :=
  ∀ n : Nat, ((fun z => z * z + c)^[n] z).escaped = false

/-! ## One orbit -/

namespace Cell

omit [Zero R] [Finiteness R] [Div R] [NatCast R]

variable {c z : Point R} {n : Nat}

/-- The counter of an orbit that stays in the disk is the exact count. -/
theorem toInt_counter_of_staysInside (inside : Point.StaysInside c z) {cell : Cell R}
    (granted : (start z).resume? c n = some cell) : cell.counter.toInt = -1 - n := by
  rw [resume?_of_moves rfl] at granted
  exact ((run?_eq_some_of_inside n fun k _ => inside k).mp granted).2

/-- An orbit that stays in the disk can be granted the updates that its counter has room for, and no more. -/
theorem resume?_start_eq_none (inside : Point.StaysInside c z) : (start z).resume? c n = none ↔ 2 ^ 31 ≤ n := by
  constructor
  · intro failed
    by_contra room
    obtain ⟨cell, granted⟩ := exists_resume?_start (c := c) (z := z) (Nat.not_le.mp room)
    rw [granted] at failed
    cases failed
  · intro many
    cases granted : (start z).resume? c n with
    | none => rfl
    | some cell =>
      have count := toInt_counter_of_staysInside inside granted
      have low := cell.counter.le_toInt
      omega

end Cell

/-! ## Every history -/

namespace Progressive

/-- The most batches that a counter has room for. -/
def roomyBatches : Nat :=
  (2 ^ 31 - 1) / updatesPerAdvance

theorem le_roomyBatches_iff {k : Nat} : k ≤ roomyBatches ↔ updatesPerAdvance * k < 2 ^ 31 := by
  rw [roomyBatches, Nat.le_div_iff_mul_le (by decide), Nat.mul_comm]
  omega

variable {p : Progressive R} {k offset : Nat}

/-- With a pixel of an orbit that stays in the disk, a batch fails exactly if the counters have no room for it. -/
theorem HasRun.advance?_eq_none_of_staysInside (h : p.HasRun k) (ho : offset < p.viewport.size)
    (inside : Point.StaysInside (p.parameterAt offset) (p.viewport.pointAtOffset offset)) :
    p.advance? = none ↔ roomyBatches ≤ k := by
  rw [← Nat.lt_succ_iff, ← Nat.not_le, le_roomyBatches_iff]
  constructor
  · intro failed room
    exact h.advance?_ne_none room failed
  · intro many
    exact h.advance?_eq_none.mpr ⟨offset, ho, (Cell.resume?_start_eq_none inside).mpr (Nat.not_lt.mp many)⟩

/-- With a pixel of an orbit that stays in the disk, those batches are done that the counters have room for. -/
theorem HasTried.hasRun_min (h : p.HasTried k) (ho : offset < p.viewport.size)
    (inside : Point.StaysInside (p.parameterAt offset) (p.viewport.pointAtOffset offset)) :
    p.HasRun (min k roomyBatches) := by
  obtain ⟨j, le, run, stuck⟩ := h
  have roomy : j ≤ roomyBatches := by
    rw [le_roomyBatches_iff, ← Nat.not_le, ← Cell.resume?_start_eq_none inside]
    obtain ⟨cell, granted, -⟩ := run.exists_cell ho
    rw [granted]
    exact Option.some_ne_none cell
  have full : j < k → roomyBatches ≤ j :=
    fun fewer => (run.advance?_eq_none_of_staysInside ho inside).mp (stuck fewer)
  have all : j = min k roomyBatches := by omega
  exact all ▸ run

/-- After a history, the counter of a pixel whose orbit stays in the disk is the exact count of the batches since the
last start, but of at most `roomyBatches`. So it is negative, and the pixel has the color for what is inside. Exactly
if there have been as many batches, the next one fails, as the counter has no room for it. -/
theorem toInt_counts_inside {K : Type} [Rounding R] [Narrowing R K] [Add K] [Sub K] [Mul K] [One K]
    [Channel K] (viewport : Viewport R) (parameter : Option (Point R)) (workers : Workers)
    (history : List (Command R)) :
    let p := (new viewport parameter workers).obeyAll history
    ∀ offset < p.viewport.size,
      Point.StaysInside (p.parameter.getD (p.viewport.pointAtOffset offset))
        (p.viewport.pointAtOffset offset) →
      p.executed = updatesPerAdvance * min (batches history) roomyBatches ∧
        (p.advance? = none ↔ roomyBatches ≤ batches history) ∧
        ∃ counter : Int32, p.counts[offset]? = some counter ∧ counter < 0 ∧
          counter.toInt = -1 - (updatesPerAdvance * min (batches history) roomyBatches : Nat) ∧
          ∀ (scheme : Scheme K) (table : Vector (Color K) (scheme.intervals + 1)),
            p.shade scheme table counter = scheme.negative := by
  intro p offset ho inside
  have run : p.HasRun (min (batches history) roomyBatches) :=
    ((hasRun_new viewport parameter workers).hasTried.obeyAll history).hasRun_min ho inside
  obtain ⟨cell, granted, found⟩ := run.exists_cell ho
  have count := Cell.toInt_counter_of_staysInside inside granted
  have negative : cell.counter < 0 := by
    rw [Int32.lt_iff_toInt_lt, count, Int32.toInt_zero]
    omega
  refine ⟨run.executed, ?_, cell.counter, ?_, negative, count, fun scheme table => ?_⟩
  · rw [run.advance?_eq_none_of_staysInside ho inside]
    omega
  · exact getElem?_counts found
  · rw [shade, if_pos negative]

/-- Zero stays where it is. -/
theorem staysInside_zero : Point.StaysInside (0 : Point Float) 0 := by
  intro n
  have fixed : (0 : Point Float) * 0 + 0 = 0 := by decide +kernel
  have still : (fun z : Point Float => z * z + 0)^[n] 0 = 0 :=
    Function.iterate_fixed (f := fun z => z * z + 0) fixed n
  rw [still]
  decide +kernel

/-- The middle of a small picture of zero, after a history in which moves fail and the parameter is changed. -/
theorem toInt_counts_inside_middle :
    let viewport : Viewport Float :=
      ⟨3, 3, 0, 4, by decide, by decide, by decide +kernel, by decide +kernel⟩
    let history : List (Command Float) := [.advance, .resize 0 5, .setParameter (some 0), .advance,
      .setView 0 0, .render, .advance]
    let p := (new viewport none (.ofNat 2)).obeyAll history
    4 < p.viewport.size ∧
      Point.StaysInside (p.parameter.getD (p.viewport.pointAtOffset 4)) (p.viewport.pointAtOffset 4) ∧
      ∃ counter : Int32, p.counts[4]? = some counter ∧ counter.toInt = -401 ∧
        ∀ (scheme : Scheme Float32) (table : Vector (Color Float32) (scheme.intervals + 1)),
          p.shade scheme table counter = scheme.negative := by
  intro viewport history
  have two : batches history = 2 := by decide +kernel
  have shown := toInt_counts_inside (K := Float32) viewport none (.ofNat 2) history 4
  have place := place_obeyAll history (new viewport none (.ofNat 2))
  -- nothing but the place of the engine is to be computed
  obtain ⟨p, same⟩ : ∃ p, (new viewport none (.ofNat 2)).obeyAll history = p := ⟨_, rfl⟩
  rw [same] at shown place ⊢
  have moved : p.viewport = (history.foldl Command.place (viewport, none)).1 := congrArg Prod.fst place
  have size : 4 < p.viewport.size := by rw [moved]; decide +kernel
  have middle : p.viewport.pointAtOffset 4 = 0 := by rw [moved]; decide +kernel
  have parameter : p.parameter = some 0 := (congrArg Prod.snd place).trans (by decide +kernel)
  have inside : Point.StaysInside (p.parameter.getD (p.viewport.pointAtOffset 4))
      (p.viewport.pointAtOffset 4) := by
    rw [middle, parameter]
    exact staysInside_zero
  obtain ⟨-, -, counter, hcounter, -, count, color⟩ := shown size inside
  rw [two] at count
  exact ⟨size, inside, counter, hcounter, count, color⟩

/-- Zero is on a single pixel. When the counter has no room for another batch, the orbit is still inside. -/
theorem advance?_eq_none_zero :
    let viewport : Viewport Float :=
      ⟨1, 1, 0, 4, by decide, by decide, by decide +kernel, by decide +kernel⟩
    ∃ p, advanceBy? 10737418 (new viewport (some 0) (.ofNat 1)) = some p ∧
      Point.StaysInside (p.parameterAt 0) (p.viewport.pointAtOffset 0) ∧
      (∃ counter : Int32, p.counts[0]? = some counter ∧ counter.toInt = -2147483601) ∧
      p.advance? = none := by
  intro viewport
  have fresh := hasRun_new viewport (some 0) (.ofNat 1)
  obtain ⟨p, done⟩ := fresh.exists_advanceBy? (k := 10737418) (by decide)
  obtain ⟨run, same_viewport, same_parameter⟩ := fresh.advanceBy? done
  have middle : viewport.pointAtOffset 0 = 0 := by decide +kernel
  have inside : Point.StaysInside (p.parameterAt 0) (p.viewport.pointAtOffset 0) := by
    rw [parameterAt, same_viewport, same_parameter]
    show Point.StaysInside 0 (viewport.pointAtOffset 0)
    rw [middle]
    exact staysInside_zero
  obtain ⟨cell, granted, found⟩ := run.exists_cell p.viewport.size_pos
  have stuck := (run.advance?_eq_none_of_staysInside p.viewport.size_pos inside).mpr (by decide)
  exact ⟨p, done, inside,
    ⟨cell.counter, getElem?_counts found, Cell.toInt_counter_of_staysInside inside granted⟩, stuck⟩

end Progressive

end Argand
