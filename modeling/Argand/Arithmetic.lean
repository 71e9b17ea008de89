/-!
# Arithmetic

Every computation of this library is written for an arbitrary type of reals. The four operations,
the comparisons and the numerals come from Lean's own classes; here is what those lack : rounding
to whole numbers (`Rounding`), telling numbers from failed results (`Finiteness`), and the
elementary functions (`Elementary`). The engines run on `Float`, which carries all three.
`FloatParts.ofFloat` reads a double as a whole number times a power of two, which is how the
library reasons about a double exactly.
-/

namespace Argand

/-! ## Classes -/

/-- Rounding to whole numbers. -/
class Rounding (R : Type) where
  floor : R → R
  ceil : R → R
  /-- The whole part, clamped to `0 ≤ n < 2 ^ 64`. -/
  toNat : R → Nat
  /-- The whole part, clamped to `-2 ^ 63 ≤ n < 2 ^ 63`. -/
  toInt : R → Int
  /-- What is left of the first number after whole multiples of the second are taken away,
  towards zero; it has the sign of the first. -/
  remainder : R → R → R

/-- Which values stand for numbers. A value that is neither finite nor `isNaN` is infinite. -/
class Finiteness (R : Type) where
  isFinite : R → Bool
  isNaN : R → Bool

/-- The elementary functions, and the meaning of a literal of a formula. -/
class Elementary (R : Type) where
  ofFloat : Float → R
  exp : R → R
  ln : R → R
  log10 : R → R
  sin : R → R
  cos : R → R
  /-- The angle of the point whose height is the first argument and whose breadth is the second. -/
  atan2 : R → R → R
  /-- The length of the hypotenuse over two sides. -/
  hypot : R → R → R

/-- Narrowing a position to a color channel. -/
class Narrowing (R : Type) (K : outParam Type) where
  narrow : R → K

/-! ## Derived operations -/

section Derived

variable {R : Type}

/-- The larger of two values; a value that is not a number gives way to the other. -/
@[inline] def larger [LT R] [DecidableLT R] [Finiteness R] (a b : R) : R :=
  if Finiteness.isNaN a then b else if a < b then b else a

/-- The smaller of two values; a value that is not a number gives way to the other. -/
@[inline] def smaller [LT R] [DecidableLT R] [Finiteness R] (a b : R) : R :=
  if Finiteness.isNaN a then b else if b < a then b else a

/-- The distance from zero. -/
@[inline] def magnitude [LT R] [DecidableLT R] [Zero R] [Neg R] (x : R) : R :=
  if x < 0 then -x else x

/-- The remainder of `x` by a positive `n`, moved up to be no less than zero. Where addition
rounds, a remainder just below zero can be moved up to `n` itself. -/
@[inline] def wrap [LT R] [DecidableLT R] [Zero R] [Add R] [Rounding R] (x n : R) : R :=
  let r := Rounding.remainder x n
  if r < 0 then r + n else r

end Derived

/-! ## Doubles as whole numbers times powers of two -/

/-- The finite double `significand * 2 ^ exponent`, up to sign. -/
structure FloatParts where
  negative : Bool
  significand : Nat
  exponent : Int
deriving Repr, DecidableEq

namespace FloatParts

/-- Reads the fields of the format : eleven bits of exponent below the sign, then fifty-two of
the significand, whose leading one is written down only when the exponent field is zero. -/
def ofFloat (x : Float) : FloatParts :=
  let bits := x.toBits.toNat
  let field : Nat := bits / Nat.pow 2 52 % Nat.pow 2 11
  let fraction : Nat := bits % Nat.pow 2 52
  { negative := bits / Nat.pow 2 63 = 1
    significand := if field = 0 then fraction else fraction + Nat.pow 2 52
    exponent := if field = 0 then -1074 else (field : Int) - 1075 }

/-- The magnitude of the remainder of two magnitudes, the second not zero, as a whole number times
a power of two. -/
def remainder (x n : FloatParts) : Nat × Int :=
  let low : Int := min x.exponent n.exponent
  let a : Nat := x.significand * Nat.pow 2 (x.exponent - low).toNat
  let b : Nat := n.significand * Nat.pow 2 (n.exponent - low).toNat
  (a % b, low)

end FloatParts

/-! ## Doubles -/

namespace Double

/-- The remainder of `x` by `n`, exact, with the sign of `x`. -/
def remainder (x n : Float) : Float :=
  if x.isNaN || n.isNaN || x.isInf || n == 0 then 0 / 0
  else if n.isInf || x.abs < n.abs then x
  else
    let parts := FloatParts.ofFloat x
    let (m, e) := parts.remainder (.ofFloat n)
    let r := (Float.ofNat m).scaleB e
    if parts.negative then -r else r

/-- Above this the square of a double may be too large. -/
def squareLarge : Float := 1e150

/-- Below this the square of a double may lose digits. -/
def squareSmall : Float := 1e-140

/-- The square root of `x * x + y * y`. The sides are scaled by a power of two first when their
squares could leave the range of doubles. An infinite side makes the result infinite. -/
def hypot (x y : Float) : Float :=
  if x.isInf || y.isInf then 1 / 0
  else
    let longer := if x.abs < y.abs then y.abs else x.abs
    let scale : Int :=
      if squareLarge < longer then -600 else if longer < squareSmall then 600 else 0
    if scale = 0 then (x * x + y * y).sqrt
    else
      let u := x.scaleB scale
      let v := y.scaleB scale
      (u * u + v * v).sqrt.scaleB (-scale)

end Double

instance natCastFloat : NatCast Float := ⟨Float.ofNat⟩

instance intCastFloat : IntCast Float := ⟨Float.ofInt⟩

instance natCastFloat32 : NatCast Float32 := ⟨Float32.ofNat⟩

@[inline] instance : Rounding Float where
  floor := Float.floor
  ceil := Float.ceil
  toNat x := x.toUInt64.toNat
  toInt x := x.toInt64.toInt
  remainder := Double.remainder

@[inline] instance : Finiteness Float := ⟨Float.isFinite, Float.isNaN⟩

@[inline] instance : Finiteness Float32 := ⟨Float32.isFinite, Float32.isNaN⟩

@[inline] instance : Elementary Float where
  ofFloat x := x
  exp := Float.exp
  ln := Float.log
  log10 := Float.log10
  sin := Float.sin
  cos := Float.cos
  atan2 := Float.atan2
  hypot := Double.hypot

@[inline] instance : Narrowing Float Float32 := ⟨Float.toFloat32⟩

end Argand
