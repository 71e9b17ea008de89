import Argand.Proofs.Orbit.History

/-!
# Two ways to count an escape

An `EscapeTime` starts its orbits at zero and tests them after an update; a `Progressive` starts them at
the point of the pixel and tests them before one. Where `0 * 0 + c = c`, the second is the first after one
update, and the tests see the same points. So granting a fresh cell a budget in batches shows what a search
with that budget finds (`Cell.counter_resume?_start`) : the index of the update that leaves the disk, or
that none does, counted down from minus one (`counterOf`). As long as there is room for the counters no batch fails,
and the two engines draw the same picture (`EscapeTime.mandelbrot_agrees`).
-/

namespace Argand

/-- The counter of a cell that has been granted a budget of updates, by the outcome of a search for an
escape among as many. -/
def counterOf (budget : Nat) : Option Nat → Int
  | some count => count
  | none => -1 - budget

/-! ## One orbit -/

namespace Cell

variable {R : Type} [Add R] [Sub R] [Mul R] [LT R] [DecidableLT R] [OfScientific R]

/-- A cell that is one update ahead of a search, and has counted as many updates, stays with it. -/
theorem counter_run?_update (c : Point R) {cell : Cell R} : ∀ (n i : Nat) (z : Point R) {counter : Int32},
    counter.toInt = -1 - i → run? c n ⟨z * z + c, counter⟩ = some cell →
      cell.counter.toInt = counterOf (i + n) (escapeCountFrom (fun z => z * z + c) i n z)
  | 0, i, z, counter, hcounter, granted => by
    cases granted
    exact hcounter
  | n + 1, i, z, counter, hcounter, granted => by
    rw [run?_succ] at granted
    rw [escapeCountFrom]
    by_cases out : (z * z + c).escaped = true
    · rw [if_pos out] at granted ⊢
      obtain ⟨count, counted, rfl⟩ := Option.map_eq_some_iff.mp granted
      have up : count.toInt = -counter.toInt - 1 := (counted?_eq_some.mp counted).2
      show count.toInt = i
      omega
    · rw [if_neg out] at granted ⊢
      obtain ⟨next, difference, later⟩ := Option.bind_eq_some_iff.mp granted
      have down : next.toInt = counter.toInt - 1 := Signed.sub?_eq_some.mp difference
      rw [← Nat.succ_add_eq_add_succ]
      exact counter_run?_update c n (i + 1) (z * z + c) (by omega) later

/-- A fresh cell shows the outcome of a search from zero. -/
theorem counter_resume?_start [Zero R] {c : Point R} (hc : (0 : Point R) * 0 + c = c) {n : Nat} {cell : Cell R}
    (granted : (start c).resume? c n = some cell) :
    cell.counter.toInt = counterOf n (escapeCount (fun z => z * z + c) n 0) := by
  have fresh : (-1 : Int32).toInt = -1 - (0 : Nat) := rfl
  have ahead : start c = ⟨0 * 0 + c, -1⟩ := by rw [hc, start]
  rw [resume?_of_moves rfl, ahead] at granted
  have shown := counter_run?_update c n 0 0 fresh granted
  rwa [Nat.zero_add] at shown

end Cell

/-! ## Every pixel -/

/-- The expression of the map of the classic set. -/
theorem Expr.parse_square : Expr.parse "z*z + c" =
    .ok (.call "add" [.call "multiply" [.symbol "z", .symbol "z"], .symbol "c"]) := by
  have lexemes : scan 0 "z*z + c".toList = .ok
      [⟨.name "z", 0⟩, ⟨.times, 1⟩, ⟨.name "z", 2⟩, ⟨.plus, 4⟩, ⟨.name "c", 6⟩] := by
    decide +kernel
  rw [Expr.parse, lexemes]
  rfl

namespace EscapeTime

section Arithmetic

variable {R : Type} [Zero R] [LT R] [Finiteness R] [Add R] [Sub R] [Mul R] [Div R] [Neg R]
  [OfScientific R] [Elementary R]

theorem mandelbrot_eq_ok (v : Viewport R) (w : Workers) :
    ∃ map, mandelbrot v w = .ok ⟨v, map, 0, usualBudget, w⟩ ∧
      ∀ z c : Point R, map.1.map₂ map.2 z c = z * z + c := by
  refine ⟨⟨⟨"f", ["z", "c"], .binary .add (.binary .multiply (.variable 0) (.variable 0))
    (.variable 1)⟩, rfl⟩, ?_, fun z c => rfl⟩
  rw [mandelbrot, Kernel.iteration, Kernel.single, Kernel.parse, Expr.parse_square]
  rfl

end Arithmetic

section Colors

variable {R K : Type} [Zero R] [LT R] [DecidableLT R] [Finiteness R] [Sub R] [Mul R] [Div R] [NatCast R]
  [Rounding R] [Narrowing R K] [Add K] [Sub K] [Mul K] [One K]

/-- A count and the counter that tells it have the same color. -/
theorem shade_counterOf (e : EscapeTime R) (p : Progressive R) (scheme : Scheme K)
    (table : Vector (Color K) (scheme.intervals + 1)) {budget : Nat} {a : Option Nat} {b : Int32}
    (h : b.toInt = counterOf budget a) : e.shade scheme table a = p.shade scheme table b := by
  have sign : b < 0 ↔ b.toInt < 0 := Int32.lt_iff_toInt_lt
  rw [Progressive.shade]
  cases a with
  | none =>
    rw [counterOf] at h
    rw [if_pos (sign.mpr (by omega)), shade]
  | some count =>
    rw [counterOf] at h
    rw [if_neg (mt sign.mp (by omega)), shade, h, Int.toNat_natCast]

end Colors

variable {R K : Type} [Zero R] [LT R] [DecidableLT R] [Finiteness R] [Add R] [Sub R] [Mul R] [Div R]
  [Neg R] [NatCast R] [OfScientific R] [Elementary R] [Rounding R] [Narrowing R K] [Add K] [Sub K]
  [Mul K] [One K] [Channel K]

/-- Two engines that tell the same of every pixel draw the same picture, whatever either of them draws on. -/
theorem render_eq_of_counts {e : EscapeTime R} {p : Progressive R} {budget : Nat}
    (viewport : p.viewport = e.viewport)
    (counts : ∀ offset < e.viewport.size, ∃ (a : Option Nat) (b : Int32),
      e.counts[offset]? = some a ∧ p.counts[offset]? = some b ∧ b.toInt = counterOf budget a)
    (scheme : Scheme K) (target target' : Picture) : e.render scheme target = p.render scheme target' := by
  rw [render, Progressive.render, viewport, Viewport.paint_target _ _ _ target target']
  apply Viewport.paint_congr
  intro offset ho
  obtain ⟨a, b, ha, hb, hab⟩ := counts offset ho
  rw [Progressive.counts, Array.getElem?_map, Option.map_eq_some_iff] at hb
  obtain ⟨cell, hcell, rfl⟩ := hb
  rw [Array.getD_eq_getD_getElem?, Array.getD_eq_getD_getElem?, ha, hcell]
  exact shade_counterOf e p scheme _ hab

/-- After as many batches as make up the budget, none of which fails, an engine that works in batches shows for every
pixel what an engine with that budget finds, and draws the same picture, whatever either of them draws on. -/
theorem mandelbrot_agrees (v : Viewport R) (w w' : Workers) (k : Nat)
    (room : Progressive.updatesPerAdvance * k < 2 ^ 31)
    (zero : ∀ offset < v.size, (0 : Point R) * 0 + v.pointAtOffset offset = v.pointAtOffset offset) :
    ∃ e batched, mandelbrot v w = .ok e ∧ Progressive.advanceBy? k (.new v none w') = some batched ∧
      let fixed := { e with budget := Progressive.updatesPerAdvance * k }
      (∀ offset < v.size, ∃ (a : Option Nat) (b : Int32),
        fixed.counts[offset]? = some a ∧ batched.counts[offset]? = some b ∧
          (∀ n, a = some n → b.toInt = n) ∧
          (a = none → b.toInt = -1 - (Progressive.updatesPerAdvance * k : Nat))) ∧
        ∀ (scheme : Scheme K) (target target' : Picture),
          fixed.render scheme target = batched.render scheme target' := by
  obtain ⟨map, hmap, square⟩ := mandelbrot_eq_ok v w
  have fresh := Progressive.hasRun_new v none w'
  obtain ⟨batched, done⟩ := fresh.exists_advanceBy? (k := k) (by rw [Nat.zero_add]; exact room)
  obtain ⟨run, viewport, parameter⟩ := fresh.advanceBy? done
  rw [Nat.zero_add] at run
  refine ⟨_, batched, hmap, done, ?_⟩
  intro fixed
  have counts : ∀ offset < v.size, ∃ (a : Option Nat) (b : Int32),
      fixed.counts[offset]? = some a ∧ batched.counts[offset]? = some b ∧
        b.toInt = counterOf (Progressive.updatesPerAdvance * k) a := by
    intro offset ho
    have inside : offset < batched.viewport.size := by rw [viewport]; exact ho
    obtain ⟨cell, granted, found⟩ := run.exists_cell inside
    rw [Progressive.parameterAt, parameter, viewport] at granted
    refine ⟨_, cell.counter, Workers.getElem?_map w ho, ?_, ?_⟩
    · exact Progressive.getElem?_counts found
    · rw [Cell.counter_resume?_start (zero offset ho) granted]
      simp only [fixed, square]
  refine ⟨?_, render_eq_of_counts viewport counts⟩
  intro offset ho
  obtain ⟨a, b, ha, hb, hab⟩ := counts offset ho
  refine ⟨a, b, ha, hb, ?_, ?_⟩
  · rintro n rfl
    exact hab
  · rintro rfl
    exact hab

/-- The two engines on doubles, after two batches. -/
theorem mandelbrot_agrees_doubles :
    let v : Viewport Float := ⟨3, 2, 0, 3, by decide, by decide, by decide +kernel, by decide +kernel⟩
    Progressive.updatesPerAdvance * 2 < 2 ^ 31 ∧
      (∀ offset < v.size, (0 : Point Float) * 0 + v.pointAtOffset offset = v.pointAtOffset offset) ∧
      ∃ e batched, mandelbrot v (.ofNat 1) = .ok e ∧
        Progressive.advanceBy? 2 (.new v none (.ofNat 3)) = some batched ∧
        let fixed := { e with budget := 400 }
        (∀ offset < 6, ∃ (a : Option Nat) (b : Int32),
          fixed.counts[offset]? = some a ∧ batched.counts[offset]? = some b ∧
            (∀ n, a = some n → b.toInt = n) ∧ (a = none → b.toInt = -401)) ∧
          ∀ (scheme : Scheme Float32) (target : Picture),
            fixed.render scheme target = batched.render scheme target := by
  intro v
  have zero : ∀ offset < v.size,
      (0 : Point Float) * 0 + v.pointAtOffset offset = v.pointAtOffset offset := by
    decide +kernel
  obtain ⟨e, batched, he, hbatched, counts, pictures⟩ :=
    mandelbrot_agrees (K := Float32) v (.ofNat 1) (.ofNat 3) 2 (by decide) zero
  exact ⟨by decide, zero, e, batched, he, hbatched, counts, fun scheme target => pictures scheme target target⟩

end EscapeTime

end Argand
