import Argand.Palette.Scheme
import Argand.Picture
import Argand.Viewport
import Argand.Workers

/-!
# Painting a viewport

A picture of a viewport has a pixel for every pixel of the viewport. `Viewport.paint` gives each one
the color that a shading finds for its offset. The picture to draw on is used again if it has the
right sides; nothing of what it showed is left. The sides of a picture are words of thirty-two bits,
so this takes a viewport whose sides have room in one.
-/

namespace Argand.Viewport

variable {R K : Type} [Zero R] [LT R] [Finiteness R]

/-- A picture to draw a viewport on. -/
def canvas (v : Viewport R) (target : Picture) : Picture :=
  target.fit v.width.toUInt32.toNat v.height.toUInt32.toNat

/-- Paints every pixel of a viewport with the color of its offset. -/
@[specialize] def paint [Channel K] (v : Viewport R) (workers : Workers) (shade : Nat → Color K)
    (target : Picture) : Picture :=
  (v.canvas target).paint (workers.map v.size fun offset => (shade offset).toBytes)

/-- Gives every pixel of a viewport one color. -/
def flood [Channel K] (v : Viewport R) (c : Color K) (target : Picture) : Picture :=
  (v.canvas target).flood c.toBytes

end Argand.Viewport
