import Argand.Palette.Color

/-!
# Pictures

A `Picture` is a rectangle of pixels with bytes for channels, stored row by row from the top.
Painting outside the rectangle does nothing.
-/

namespace Argand

/-- A rectangle of pixels. -/
structure Picture where
  width : Nat
  height : Nat
  pixels : Array (Color UInt8)
  size_eq : pixels.size = width * height

namespace Picture

/-- The picture that is black all over. -/
def black (width height : Nat) : Picture :=
  ⟨width, height, Array.replicate (width * height) ⟨0, 0, 0⟩, by simp⟩

/-- A picture of the given sides : this one if it has them, a black one if not. -/
def fit (p : Picture) (width height : Nat) : Picture :=
  if p.width = width ∧ p.height = height then p else black width height

/-- Gives every pixel one color. -/
def flood (p : Picture) (c : Color UInt8) : Picture :=
  { p with
    pixels := p.pixels.map fun _ => c
    size_eq := by simp [p.size_eq] }

/-- Gives the pixels the colors of an array, as far as it goes. -/
def paint (p : Picture) (colors : Array (Color UInt8)) : Picture :=
  { p with
    pixels := p.pixels.mapIdx fun i old => colors.getD i old
    size_eq := by simp [p.size_eq] }

/-- The color of the pixel at a column and a row. -/
def get? (p : Picture) (column row : Nat) : Option (Color UInt8) :=
  if column < p.width then p.pixels[row * p.width + column]? else none

/-- Gives the pixel at a column and a row a color. -/
def put (p : Picture) (column row : Nat) (c : Color UInt8) : Picture :=
  if column < p.width ∧ row < p.height then
    { p with
      pixels := p.pixels.setIfInBounds (row * p.width + column) c
      size_eq := by simp [p.size_eq] }
  else p

/-- The rows from the top. -/
def rows (p : Picture) : List (List (Color UInt8)) :=
  (List.range p.height).map fun row =>
    (p.pixels.extract (row * p.width) ((row + 1) * p.width)).toList

end Picture

end Argand
