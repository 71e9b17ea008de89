import Argand.Picture
import Argand.Viewport

/-!
# Axes

The coordinate axes as an overlay of a picture : both of them from `-1.1` to `1.1`, with an arrow at
the positive end and a tick at every tenth (`axes`). A segment is drawn by walking along it in even
steps and painting the pixels that are met (`Segment.draw`). There are at least as many steps as the
segment is pixels long in either direction, but no more than twice the sides of the picture, however
large the viewport shows the segment.
-/

namespace Argand

/-- A segment of a line. -/
structure Segment (R : Type) where
  start : Point R
  stop : Point R
deriving Repr, DecidableEq

section Segments

variable {R : Type}

/-- The point on the other side of the diagonal. -/
def Point.reflect (p : Point R) : Point R :=
  ⟨p.im, p.re⟩

/-- The segment on the other side of the diagonal. -/
def Segment.reflect (s : Segment R) : Segment R :=
  ⟨s.start.reflect, s.stop.reflect⟩

variable [OfScientific R] [Zero R] [Neg R] [Sub R] [Div R] [IntCast R]

/-- The segments of the real axis : the line, the arrow and the ticks. -/
def realAxis (R : Type) [OfScientific R] [Zero R] [Neg R] [Sub R] [Div R] [IntCast R] :
    List (Segment R) :=
  let tip : Point R := ⟨(1.1 : R), 0⟩
  let barb : R := 0.05
  [⟨⟨-(1.1 : R), 0⟩, tip⟩, ⟨tip, ⟨(1.1 : R) - barb, barb⟩⟩, ⟨tip, ⟨(1.1 : R) - barb, -barb⟩⟩] ++
    (List.range 21).map fun (i : Nat) =>
      let x : R := ((i - 10 : Int) : R) / (10.0 : R)
      ⟨⟨x, 0⟩, ⟨x, -(0.025 : R)⟩⟩

/-- The segments of both axes. -/
def axes (R : Type) [OfScientific R] [Zero R] [Neg R] [Sub R] [Div R] [IntCast R] :
    List (Segment R) :=
  realAxis R ++ (realAxis R).map Segment.reflect

end Segments

section Drawing

variable {R : Type} [Zero R] [One R] [LT R] [DecidableLT R] [LE R] [DecidableLE R] [Finiteness R]
  [Add R] [Sub R] [Mul R] [Div R] [Neg R] [NatCast R] [OfScientific R] [Rounding R]

namespace Segment

/-- The number of steps along a segment between two places of a picture, of which `limit` is the
most. -/
def steps (limit : Nat) (a b : R × R) : Nat :=
  let long := larger (magnitude (b.1 - a.1)) (magnitude (b.2 - a.2))
  min (Rounding.toNat (larger (Rounding.ceil long) 1)) limit

/-- The corner of the pixel that is met after `s` of `n` steps from one place to another. -/
def visited (a b : R × R) (n s : Nat) : R × R :=
  let t : R := (s : R) / (n : R)
  (Rounding.floor (a.1 + (b.1 - a.1) * t), Rounding.floor (a.2 + (b.2 - a.2) * t))

/-- Paints the pixel with a corner, if the picture has it. -/
def putCorner (target : Picture) (corner : R × R) (c : Color UInt8) : Picture :=
  if 0 ≤ corner.1 && 0 ≤ corner.2 then
    target.put (Rounding.toNat corner.1) (Rounding.toNat corner.2) c
  else target

/-- Paints the pixels along a segment. -/
def draw (s : Segment R) (v : Viewport R) (c : Color UInt8) (target : Picture) : Picture :=
  let a := v.screen s.start
  let b := v.screen s.stop
  let n := steps ((target.width + target.height) * 2) a b
  (List.range (n + 1)).foldl (fun target s => putCorner target (visited a b n s) c) target

end Segment

/-- Paints both axes over a picture. -/
def Viewport.drawAxes [IntCast R] (v : Viewport R) (c : Color UInt8) (target : Picture) : Picture :=
  (axes R).foldl (fun target s => s.draw v c target) target

end Drawing

end Argand
