/-!
# Modes

The ways to look at the plane, by name. Capital and small letters are the same in a name.
-/

namespace Argand

/-- A way to look at the plane. -/
inductive Mode where
  /-- Escape counts of any map. -/
  | escape
  /-- Escape times in batches, with the point of the pixel for a parameter. -/
  | mandelbrot
  /-- Escape times in batches, with one parameter for all pixels. -/
  | julia
  /-- The basins of Newton's method. -/
  | newton
  /-- The roots of Littlewood polynomials. -/
  | littlewood
deriving Repr, DecidableEq

namespace Mode

/-- Every mode. -/
def all : List Mode :=
  [escape, mandelbrot, julia, newton, littlewood]

/-- The name of a mode. -/
def name : Mode → String
  | escape => "escape"
  | mandelbrot => "mandelbrot"
  | julia => "julia"
  | newton => "newton"
  | littlewood => "littlewood"

/-- Whether the picture of a mode gets better with more passes. -/
def isIterative : Mode → Bool
  | escape | newton => false
  | mandelbrot | julia | littlewood => true

/-- The mode of a name. -/
def ofName? (name : String) : Option Mode :=
  all.find? (·.name = name.map Char.toLower)

/-- What is said of a name of no mode. -/
def unknownMessage (name : String) : String :=
  "Unknown mode '" ++ name ++ "'"

end Mode

end Argand
