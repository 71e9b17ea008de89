import Argand.Kernel.Basic
import Argand.Painting

/-!
# Escape times

The orbit of a point under a map leaves the disk of radius two after some number of updates, or
stays inside for as long as one cares to look. `escapeCount` looks for a fixed number of updates. An
`EscapeTime` counts for every pixel of a viewport, where the map takes the point of the pixel for
its parameter, and shades a pixel by its count. Pixels whose orbits stay inside get the color for
what has no position in a scheme.
-/

namespace Argand

section Counting

variable {R : Type} [Add R] [Mul R] [LT R] [DecidableLT R] [OfScientific R]

/-- Whether a point is outside the disk of radius two. -/
@[inline] def Point.escaped (z : Point R) : Bool :=
  (4.0 : R) < z.normSq

/-- Goes on with an orbit whose next update has index `i`. -/
@[specialize] def escapeCountFrom (update : Point R → Point R) (i : Nat) :
    Nat → Point R → Option Nat
  | 0, _ => none
  | budget + 1, z =>
    let z := update z
    if z.escaped then some i else escapeCountFrom update (i + 1) budget z

/-- The index of the first update that takes an orbit outside the disk, among the first `budget`
ones. -/
@[inline] def escapeCount (update : Point R → Point R) (budget : Nat) (z : Point R) : Option Nat :=
  escapeCountFrom update 0 budget z

end Counting

/-- The position of a count in a scheme, of which sixty counts go once round. -/
@[inline] def countPosition {R : Type} [Div R] [NatCast R] (count : Nat) : R :=
  (count : R) / ((60 : Nat) : R)

/-! ## Every pixel of a viewport -/

/-- Escape counts of a map on a viewport. -/
structure EscapeTime (R : Type) [Zero R] [LT R] [Finiteness R] where
  viewport : Viewport R
  /-- The map, of the point that moves and of the point of the pixel. -/
  map : { p : Program // p.arity = 2 }
  /-- Where every orbit starts. -/
  seed : Point R
  budget : Nat
  workers : Workers

namespace EscapeTime

/-- The number of updates where none is asked for. -/
def usualBudget : Nat := 800

section Arithmetic

variable {R K : Type} [Zero R] [LT R] [DecidableLT R] [Finiteness R] [Add R] [Sub R] [Mul R]
  [Div R] [Neg R] [NatCast R] [OfScientific R] [Elementary R] [Rounding R] [Narrowing R K]

/-- The escape times of a kernel's map `f`. -/
def ofKernel (viewport : Viewport R) (kernel : Kernel) (workers : Workers) :
    Except CompileError (EscapeTime R) :=
  (kernel.require "f" 2).map fun map => ⟨viewport, map, 0, usualBudget, workers⟩

/-- The escape times of orbits from zero under `z * z + c`. -/
def mandelbrot (viewport : Viewport R) (workers : Workers) :
    Except CompileError (EscapeTime R) := do
  ofKernel viewport (← Kernel.iteration "z*z + c") workers

/-- The count of every pixel, row by row. -/
def counts (e : EscapeTime R) : Array (Option Nat) :=
  e.workers.map e.viewport.size fun offset =>
    let c := e.viewport.pointAtOffset offset
    escapeCount (fun z => e.map.1.map₂ e.map.2 z c) e.budget e.seed

variable [Add K] [Sub K] [Mul K] [One K] [Channel K]

/-- The color of a count, by a table of samples. -/
@[inline] def shade (_ : EscapeTime R) (scheme : Scheme K)
    (table : Vector (Color K) (scheme.intervals + 1)) : Option Nat → Color K
  | some count => scheme.sampleIn table (countPosition count : R)
  | none => scheme.negative

/-- Draws the counts of all pixels. -/
def render (e : EscapeTime R) (scheme : Scheme K) (target : Picture) : Picture :=
  let counts := e.counts
  let table := scheme.sampled R
  e.viewport.paint e.workers (fun offset => e.shade scheme table (counts.getD offset none)) target

end Arithmetic

end EscapeTime

end Argand
