import Argand.Move
import Argand.Orbit.EscapeTime
import Argand.Overflow
import Argand.TwinBuffer

/-!
# Escape times in batches

A `Progressive` looks for the escape of every pixel's orbit under `z * z + c` without knowing
beforehand how long. It keeps a `Cell` for every pixel : the point where the orbit is, and a counter
that goes down by one with every update, from minus one. When the orbit is found outside the disk
the sign of the counter is changed, so that it says the number of updates before, and the cell
rests. `Progressive.advance` grants every cell a batch of updates.

Counters have thirty-two bits. Where there is no room to count one more update, the update fails
(`Cell.runFrom?`), and so does the batch of all cells that it belongs to.

Either `c` is the point of the pixel, or it is the same for all pixels.
-/

namespace Argand

/-! ## Cells -/

/-- How far an orbit has come. -/
structure Cell (R : Type) where
  point : Point R
  /-- Negative while the orbit stays inside. -/
  counter : Int32
deriving Repr, DecidableEq

namespace Cell

variable {R : Type}

/-- The cell of an orbit that starts at a point. -/
@[inline] def start (z : Point R) : Cell R :=
  ⟨z, -1⟩

/-- Whether the orbit has been found outside the disk. -/
@[inline] def rests (cell : Cell R) : Bool :=
  0 ≤ cell.counter

/-- The number of updates that a counter has counted. -/
@[inline] def counted? (counter : Int32) : Option Int32 := do
  Signed.sub? (← Signed.neg? counter) 1

variable [Add R] [Sub R] [Mul R] [LT R] [DecidableLT R] [OfScientific R]

/-- Goes on with an orbit that is at the point of the parts `re` and `im`. The parts are put together
only where the orbit stays, since a point takes memory and this is done for every update. -/
@[specialize] def runFrom? (c : Point R) : Nat → R → R → Int32 → Option (Cell R)
  | 0, re, im, counter => some ⟨⟨re, im⟩, counter⟩
  | budget + 1, re, im, counter =>
    if (4.0 : R) < re * re + im * im then (counted? counter).map fun count => ⟨⟨re, im⟩, count⟩
    else
      match Signed.sub? counter 1 with
      | some counter =>
        let z : Point R := ⟨re, im⟩ * ⟨re, im⟩ + c
        runFrom? c budget z.re z.im counter
      | none => none

/-- Grants a cell that does not rest at most `budget` updates. -/
@[inline] def run? (c : Point R) (budget : Nat) (cell : Cell R) : Option (Cell R) :=
  runFrom? c budget cell.point.re cell.point.im cell.counter

@[simp] theorem run?_zero (c : Point R) (cell : Cell R) : cell.run? c 0 = some cell :=
  rfl

theorem run?_succ (c : Point R) (budget : Nat) (cell : Cell R) :
    cell.run? c (budget + 1) =
      if cell.point.escaped then (counted? cell.counter).map fun count => ⟨cell.point, count⟩
      else
        (Signed.sub? cell.counter 1).bind fun counter =>
          run? c budget ⟨cell.point * cell.point + c, counter⟩ := by
  show (if (4.0 : R) < cell.point.normSq then _ else _) = if decide _ = true then _ else _
  simp only [decide_eq_true_eq]
  cases Signed.sub? cell.counter 1 <;> rfl

/-- Grants a cell at most `budget` updates. -/
@[inline] def resume? (c : Point R) (budget : Nat) (cell : Cell R) : Option (Cell R) :=
  if cell.rests then some cell else cell.run? c budget

end Cell

/-! ## Every pixel of a viewport -/

/-- Escape times in batches on a viewport. -/
structure Progressive (R : Type) [Zero R] [LT R] [Finiteness R] where
  viewport : Viewport R
  /-- The parameter of the map, if it is the same for all pixels. -/
  parameter : Option (Point R)
  state : TwinBuffer (Cell R)
  /-- The number of updates granted to each cell since the last start. -/
  executed : Nat
  workers : Workers
  size_state : state.size = viewport.size

namespace Progressive

/-- The number of updates in a batch. -/
def updatesPerAdvance : Nat := 200

/-- The number of batches that grant at least `budget` updates. Budgets have thirty-two bits, and so
has the sum that is divided. -/
def advancesFor? (budget : Int32) : Option Nat := do
  let updates : Int32 := .ofNat updatesPerAdvance
  let sum ← Signed.add? (max budget 0) updates
  let dividend ← Signed.sub? sum 1
  return (dividend / updates).toInt64.toUInt64.toNat

section Arithmetic

variable {R K : Type} [Zero R] [LT R] [DecidableLT R] [Finiteness R] [Add R] [Sub R] [Mul R]
  [Div R] [NatCast R] [OfScientific R]

/-- Starts every orbit at the point of its pixel. -/
def start (viewport : Viewport R) (parameter : Option (Point R)) (workers : Workers)
    (state : TwinBuffer (Cell R)) (h : state.size = viewport.size) : Progressive R where
  viewport := viewport
  parameter := parameter
  state := state.fill workers fun offset => .start (viewport.pointAtOffset offset)
  executed := 0
  workers := workers
  size_state := by simpa [TwinBuffer.fill, TwinBuffer.size] using h

/-- Escape times on a viewport before any batch. -/
def new (viewport : Viewport R) (parameter : Option (Point R)) (workers : Workers) :
    Progressive R :=
  start viewport parameter workers (.new viewport.size (.start 0))
    (by simp [TwinBuffer.new, TwinBuffer.size])

/-- Starts over. -/
def restart (p : Progressive R) : Progressive R :=
  start p.viewport p.parameter p.workers p.state p.size_state

/-- Starts over with another parameter. -/
def setParameter (p : Progressive R) (parameter : Option (Point R)) : Progressive R :=
  start p.viewport parameter p.workers p.state p.size_state

/-- Starts over on another viewport. The buffers are used again if they have the right size. -/
def lookAt (p : Progressive R) (viewport : Viewport R) : Progressive R :=
  if h : p.state.size = viewport.size then start viewport p.parameter p.workers p.state h
  else new viewport p.parameter p.workers

/-- Starts over on another viewport, in new buffers. -/
def rebuild (p : Progressive R) (viewport : Viewport R) : Progressive R :=
  new viewport p.parameter p.workers

/-- Starts over on a rectangle of other sides. -/
def resize (width height : Nat) : Move R (Progressive R) Unit :=
  .relocate viewport rebuild (·.resize width height)

/-- Starts over on another window of the plane. -/
def setView (center : Point R) (zoom : R) : Move R (Progressive R) Unit :=
  .relocate viewport lookAt (·.setView center zoom)

/-- Leaves the passes from now on to other workers. -/
def employ (p : Progressive R) (workers : Workers) : Progressive R :=
  { p with workers := workers }

/-- The parameter of the map for the pixel at an offset. -/
@[inline] def parameterAt (p : Progressive R) (offset : Nat) : Point R :=
  p.parameter.getD (p.viewport.pointAtOffset offset)

/-- Every cell with a batch of updates more, if their counters have room for it. -/
def advance? (p : Progressive R) : Option (Progressive R) :=
  (p.state.pass? p.workers fun offset cells =>
    (cells.getD offset (.start 0)).resume? (p.parameterAt offset) updatesPerAdvance).map
    fun after =>
      { p with
        state := after.1
        executed := p.executed + updatesPerAdvance
        size_state := after.2.trans p.size_state }

/-- Grants every cell a batch of updates. -/
def advance : Move R (Progressive R) Unit :=
  .attempt advance?

/-- The cell of every pixel, row by row. -/
def cells (p : Progressive R) : Array (Cell R) :=
  p.state.front

/-- The counter of every pixel, row by row. -/
def counts (p : Progressive R) : Array Int32 :=
  p.cells.map (·.counter)

variable [Rounding R] [Narrowing R K] [Add K] [Sub K] [Mul K] [One K] [Channel K]

/-- The color of a counter, by a table of samples. -/
@[inline] def shade (_ : Progressive R) (scheme : Scheme K)
    (table : Vector (Color K) (scheme.intervals + 1)) (counter : Int32) : Color K :=
  if counter < 0 then scheme.negative
  else scheme.sampleIn table (countPosition counter.toInt.toNat : R)

/-- Draws the counters of all pixels. -/
def render (p : Progressive R) (scheme : Scheme K) (target : Picture) : Picture :=
  let table := scheme.sampled R
  p.viewport.paint p.workers
    (fun offset => p.shade scheme table (p.cells.getD offset (.start 0)).counter) target

end Arithmetic

end Progressive

end Argand
