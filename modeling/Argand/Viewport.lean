import Argand.Decimal.Layout
import Argand.Point

/-!
# Viewports

A `Viewport` lays a rectangle of pixels over a window of the plane. The window is given by its
center and by the extent of the plane along the shorter side of the rectangle. Rows are counted
downwards, while the imaginary axis points upwards. A pixel is a small square of the plane, and the
point of a pixel (`Viewport.pointAt`) is the middle of the square. In the other direction
`Viewport.screen` gives the place of a point in fractions of pixels, and `Viewport.pixelOf?` the
pixel it falls in.
-/

namespace Argand

/-- A pixel by its column and its row. -/
structure Pixel where
  column : Nat
  row : Nat
deriving Repr, DecidableEq

/-- Why there is no viewport. -/
inductive ViewError (R : Type) where
  /-- A side of the rectangle is zero. -/
  | emptyViewport (width height : Nat)
  /-- The extent is not a positive number. -/
  | badZoom (zoom : R)
deriving Repr

/-- The wording of an error. -/
def ViewError.message : ViewError Float → String
  | emptyViewport width height =>
    "The viewport " ++ toString width ++ "x" ++ toString height ++ " has no pixels"
  | badZoom zoom => "The zoom " ++ Layout.plain.write zoom ++ " is not a positive, finite extent"

/-- A rectangle of pixels over a window of the plane. -/
structure Viewport (R : Type) [Zero R] [LT R] [Finiteness R] where
  width : Nat
  height : Nat
  /-- The point under the middle of the rectangle. -/
  center : Point R
  /-- The extent of the plane along the shorter side. -/
  zoom : R
  width_pos : 0 < width
  height_pos : 0 < height
  zoom_finite : Finiteness.isFinite zoom = true
  zoom_pos : 0 < zoom

namespace Viewport

variable {R : Type} [Zero R] [LT R] [Finiteness R]

/-- The viewport of given sides and window, if it has pixels and shows something. -/
def new? [DecidableLT R] (width height : Nat) (center : Point R) (zoom : R) :
    Except (ViewError R) (Viewport R) :=
  if hs : 0 < width ∧ 0 < height then
    if hz : Finiteness.isFinite zoom = true ∧ 0 < zoom then
      .ok ⟨width, height, center, zoom, hs.1, hs.2, hz.1, hz.2⟩
    else .error (.badZoom zoom)
  else .error (.emptyViewport width height)

/-- The same window on a rectangle of other sides. -/
def resize [DecidableLT R] (v : Viewport R) (width height : Nat) :
    Except (ViewError R) (Viewport R) :=
  new? width height v.center v.zoom

/-- Another window on the same rectangle. -/
def setView [DecidableLT R] (v : Viewport R) (center : Point R) (zoom : R) :
    Except (ViewError R) (Viewport R) :=
  new? v.width v.height center zoom

/-- The number of pixels. -/
def size (v : Viewport R) : Nat :=
  v.width * v.height

theorem size_pos (v : Viewport R) : 0 < v.size :=
  Nat.mul_pos v.width_pos v.height_pos

/-- The pixel at an offset, when pixels are counted row by row. -/
def pixelAt (v : Viewport R) (offset : Nat) : Pixel :=
  ⟨offset % v.width, offset / v.width⟩

section Maps

variable [Add R] [Sub R] [Mul R] [Div R] [NatCast R] [OfScientific R]

/-- The side of a pixel. -/
@[inline] def scale (v : Viewport R) : R :=
  v.zoom / ((min v.width v.height : Nat) : R)

/-- The point in the middle of a pixel. -/
@[inline] def pointAt (v : Viewport R) (p : Pixel) : Point R :=
  ⟨v.center.re + v.scale * ((p.column : R) + (0.5 : R) - (v.width : R) / (2.0 : R)),
    v.center.im + v.scale * ((v.height : R) / (2.0 : R) - (p.row : R) - (0.5 : R))⟩

/-- The point in the middle of the pixel at an offset. -/
@[inline] def pointAtOffset (v : Viewport R) (offset : Nat) : Point R :=
  v.pointAt (v.pixelAt offset)

/-- The place of a point in fractions of pixels, from the upper left corner to the right and
downwards. -/
@[inline] def screen (v : Viewport R) (p : Point R) : R × R :=
  ((p.re - v.center.re) / v.scale + (v.width : R) / (2.0 : R),
    (v.height : R) / (2.0 : R) - (p.im - v.center.im) / v.scale)

variable [LE R] [DecidableLE R] [Rounding R]

/-- The pixel a point falls in, if it is in view. -/
def pixelOf? (v : Viewport R) (p : Point R) : Option Pixel :=
  let (x, y) := v.screen p
  if 0 ≤ x && 0 ≤ y then
    let column := Rounding.toNat (Rounding.floor x)
    let row := Rounding.toNat (Rounding.floor y)
    if column < v.width && row < v.height then some ⟨column, row⟩ else none
  else none

/-- The offset of the pixel a point falls in, if it is in view. -/
def offsetOf? (v : Viewport R) (p : Point R) : Option Nat :=
  (v.pixelOf? p).map fun pixel => pixel.row * v.width + pixel.column

end Maps

end Viewport

end Argand
