import Argand.Axes
import Argand.Kernel.Basic
import Argand.Newton.Polish
import Argand.Painting

/-!
# Newton basins

`NewtonBasins` polishes the point of every pixel of a viewport. The color of a pixel tells the root
that was reached, by its distance from zero and its angle, and fades with the number of corrections
(`NewtonBasins.shade`). The fading can be made smooth by the size of the last correction, a disk can
mark each root, and the axes can be drawn on top.
-/

namespace Argand

/-- Newton's method on a viewport. -/
structure NewtonBasins (R : Type) [Zero R] [LT R] [Finiteness R] where
  viewport : Viewport R
  f : { p : Program // p.arity = 1 }
  df : { p : Program // p.arity = 1 }
  /-- Whether the last correction counts for a fraction of a step. -/
  smooth : Bool
  /-- Whether the roots are marked. -/
  marks : Bool
  axes : Bool
  workers : Workers

namespace NewtonBasins

variable {R K : Type} [Zero R] [One R] [LT R] [DecidableLT R] [LE R] [DecidableLE R]
  [Finiteness R] [Add R] [Sub R] [Mul R] [Div R] [Neg R] [NatCast R] [IntCast R] [OfScientific R]
  [Elementary R] [Rounding R] [Narrowing R K] [Add K] [Sub K] [Mul K] [One K] [Channel K]

/-- The basins of a kernel's function `f` and its derivative `df`. -/
def ofKernel (viewport : Viewport R) (kernel : Kernel) (workers : Workers) :
    Except CompileError (NewtonBasins R) := do
  let f ← kernel.require "f" 1
  let df ← kernel.require "df" 1
  .ok ⟨viewport, f, df, false, false, false, workers⟩

/-- The basin of every pixel, row by row. -/
def basins (b : NewtonBasins R) : Array (Basin R) :=
  b.workers.map b.viewport.size fun offset =>
    polish (b.f.1.map b.f.2) (b.df.1.map b.df.2) (b.viewport.pointAtOffset offset)

/-! ## Shades -/

/-- A way from zero to one that starts and ends slowly. -/
def easeInOut (x : R) : R :=
  if x < (0.5 : R) then (4.0 : R) * x * x * x
  else
    let y := (2.0 : R) - (2.0 : R) * x
    (1.0 : R) - (0.5 : R) * (y * y * y)

/-- The position of a root in a scheme. Roots next to zero have no angle. -/
def rootPosition (root : Point R) : R :=
  let distance : R := Modulus.modulus root
  let angle := ((1.0 : R) + root.angle / (3.141592653589793 : R)) * (0.5 : R) * (659.0 : R)
  distance * (43.223 : R) + (if distance < (1e-3 : R) then 0 else angle)

/-- What the size of the last correction adds to the number of corrections. -/
def fraction (step : Point R) : R :=
  let v := (1.0 : R) + (Elementary.log10 (Modulus.modulus step : R) + (6.0 : R)) / (6.0 : R)
  smaller (larger v 0) 1

/-- How much of its color a pixel keeps after some corrections. -/
def fade (steps : R) : R :=
  let x := (0.04 : R) * steps
  Elementary.exp (-(x * x))

/-- The radius of the disk that marks a root. -/
def markRadius : R := (0.06 : R)

/-- The color of a pixel by a table of samples, from the point of the pixel and its basin. -/
def shadeIn (b : NewtonBasins R) (scheme : Scheme K)
    (table : Vector (Color K) (scheme.intervals + 1)) (start : Point R) (basin : Basin R) :
    Color K :=
  match basin.steps with
  | none => scheme.negative
  | some n =>
    let steps : R := if b.smooth then (n : R) + fraction basin.step else (n : R)
    let color := scheme.negative.blend (scheme.sampleIn table (rootPosition basin.root : R))
      (Narrowing.narrow (fade steps))
    if b.marks then
      let distance := (Modulus.modulus (basin.root - start) : R) / markRadius
      if distance < 1 then scheme.axes.blend color (Narrowing.narrow (easeInOut distance))
      else color
    else color

/-- The color of a pixel from its point and its basin. -/
def shade (b : NewtonBasins R) (scheme : Scheme K) (start : Point R) (basin : Basin R) : Color K :=
  b.shadeIn scheme (scheme.sampled R) start basin

/-- Draws the basins of all pixels, and the axes if they are wanted. -/
def render (b : NewtonBasins R) (scheme : Scheme K) (target : Picture) : Picture :=
  let basins := b.basins
  let table := scheme.sampled R
  let v := b.viewport
  let picture := v.paint b.workers
    (fun offset => b.shadeIn scheme table (v.pointAtOffset offset)
      (basins.getD offset ⟨0, 0, none⟩)) target
  if b.axes then v.drawAxes scheme.axes.toBytes picture else picture

end NewtonBasins

end Argand
