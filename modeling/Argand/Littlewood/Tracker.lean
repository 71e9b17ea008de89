import Argand.Axes
import Argand.Littlewood.RootFree
import Argand.Littlewood.Table
import Argand.Painting
import Argand.TwinBuffer

/-!
# Tracking the roots of Littlewood polynomials

A `Tracker` holds a table of estimates and refines all of them at once, each pass with a slightly
smaller step than the one before (`Tracker.advance`). It draws every estimate in use as a dot, which
has the color of the degree of its polynomial and is the larger the lower the degree is. Dots of
lower degrees lie on top. Behind the dots it can show where no roots can be, and above them the
axes.
-/

namespace Argand.Littlewood

/-- A table of estimates on a viewport. -/
structure Tracker (R : Type) [Zero R] [LT R] [Finiteness R] where
  viewport : Viewport R
  shape : Shape
  seed : UInt32
  roots : TwinBuffer (Point R)
  /-- The part of a correction that the next pass makes. -/
  step : R
  /-- The number of passes since the last start. -/
  passes : Nat
  /-- Whether the region without roots is shown. -/
  proven : Bool
  axes : Bool
  workers : Workers

namespace Tracker

variable {R K : Type} [Zero R] [One R] [LT R] [DecidableLT R] [LE R] [DecidableLE R]
  [Finiteness R] [Add R] [Sub R] [Mul R] [Div R] [Neg R] [NatCast R] [IntCast R] [OfScientific R]
  [Elementary R] [Rounding R] [Narrowing R K] [Add K] [Sub K] [Mul K] [One K] [Channel K]

/-- Puts every estimate back to where it starts. -/
def restart (t : Tracker R) : Tracker R :=
  { t with
    roots := t.roots.fill t.workers fun address =>
      let (row, column) := t.shape.coordinate address
      seedPoint row column t.seed
    step := 1
    passes := 0 }

/-- A tracker at the start. -/
def new (viewport : Viewport R) (seed : UInt32) (shape : Shape) (workers : Workers) : Tracker R :=
  restart ⟨viewport, shape, seed, .new shape.slots 0, 1, 0, false, false, workers⟩

/-- Starts over with another seed. -/
def reseed (t : Tracker R) (seed : UInt32) : Tracker R :=
  restart { t with seed := seed }

/-- Refines every estimate. -/
def advance (t : Tracker R) : Tracker R :=
  { t with
    roots := t.roots.pass t.workers fun address table =>
      refine t.shape (fun i => table.getD i 0) address t.step
    step := t.step * (0.999 : R)
    passes := t.passes + 1 }

/-- Every slot, in use or not. -/
def table (t : Tracker R) : Array (Point R) :=
  t.roots.front

/-- The estimates for the roots of a polynomial, if the table has them. -/
def rootsOf? (t : Tracker R) (id : Nat) : Option (Array (Point R)) :=
  let first := t.shape.address id 0
  let last := first + (degree id.toUInt32).toNat
  if last ≤ t.table.size then some (t.table.extract first last) else none

/-! ## Dots -/

/-- The side of the dots for roots of a degree. -/
def dotSize (s : Shape) (d : Nat) : Nat :=
  1 + (s.maxDegree - (d + 1)) / 5

/-- Draws a dot for a point, a square of pixels with the point in its middle. Dots that are off the
picture by more than their size are passed over. -/
def plot (v : Viewport R) (point : Point R) (size : Nat) (c : Color UInt8) (target : Picture) :
    Picture :=
  let (x, y) := v.screen point
  let margin : R := (size : R)
  let near (v : R) (extent : Nat) : Bool := -margin ≤ v && v ≤ (extent : R) + margin
  if near x target.width && near y target.height then
    let left := Rounding.toInt (Rounding.floor x) - (size / 2 : Nat)
    let top := Rounding.toInt (Rounding.floor y) - (size / 2 : Nat)
    (List.range size).foldl (fun target (dx : Nat) =>
      (List.range size).foldl (fun target (dy : Nat) =>
        let column := left + dx
        let row := top + dy
        if 0 ≤ column && 0 ≤ row then target.put column.toNat row.toNat c else target)
        target) target
  else target

/-- The degrees of the polynomials of a table, from the highest one down to one. -/
def degrees (s : Shape) : List Nat :=
  (List.range' 1 (s.maxDegree - 1)).reverse

/-- The polynomials of a degree, as far as the table has them. -/
def polynomialsOf (s : Shape) (d : Nat) : List Nat :=
  let first := Nat.pow 2 (d + 1)
  let last := min (Nat.pow 2 (d + 2)) s.polynomials
  List.range' first (last - first)

/-- Draws the region without roots if it is wanted, and the color of it everywhere if not. -/
def drawBackdrop (t : Tracker R) (scheme : Scheme K) (target : Picture) : Picture :=
  if t.proven then
    t.viewport.paint t.workers (fun offset =>
      match verdict (t.viewport.pointAtOffset offset) with
      | .excluded => scheme.negative
      | .possible => scheme.axes) target
  else t.viewport.flood scheme.negative target

/-- Draws a dot for every estimate in use. A polynomial whose block the table has not would get none. -/
def drawRoots (t : Tracker R) (scheme : Scheme K) (target : Picture) : Picture :=
  let samples := scheme.sampled R
  (degrees t.shape).foldl (fun target (d : Nat) =>
    let color := (scheme.sampleIn samples ((d : R) / (t.shape.maxDegree : R))).toBytes
    let size := dotSize t.shape d
    (polynomialsOf t.shape d).foldl (fun target id =>
      match t.rootsOf? id with
      | some roots => roots.foldl (fun target root => plot t.viewport root size color target) target
      | none => target) target) target

/-- Draws the backdrop, the roots, and the axes if they are wanted. -/
def render (t : Tracker R) (scheme : Scheme K) (target : Picture) : Picture :=
  let picture := t.drawRoots scheme (t.drawBackdrop scheme target)
  if t.axes then t.viewport.drawAxes scheme.axes.toBytes picture else picture

end Tracker

end Argand.Littlewood
