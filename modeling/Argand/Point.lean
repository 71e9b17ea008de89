import Argand.Arithmetic

/-!
# Points of the plane

A `Point R` is a complex number over the reals `R`, with the operations of the Argand plane. Each
is written out in its parts, so that it says which real operations happen and in what order : that
is what a rounding arithmetic needs to give the same digits every time. A real number added to a
point changes the real part alone, and one multiplied with it scales both parts.

`Modulus` and `FinitePoint` are what the searches of this library ask of a type of numbers beyond
the operators; they are classes so that exact complex numbers can take the place of points.
-/

namespace Argand

/-- A complex number in its real and imaginary part. -/
structure Point (R : Type) where
  re : R
  im : R
deriving Repr, DecidableEq

/-- Numbers with a distance from zero. -/
class Modulus (A : Type) (R : outParam Type) where
  modulus : A → R

/-- Numbers of which some stand for no place in the plane. -/
class FinitePoint (A : Type) where
  isFinite : A → Bool

namespace Point

variable {R : Type}

@[inline] instance [Zero R] : Zero (Point R) := ⟨⟨0, 0⟩⟩

@[inline] instance [Zero R] [One R] : One (Point R) := ⟨⟨1, 0⟩⟩

instance [Zero R] : Inhabited (Point R) := ⟨0⟩

/-! ## Points with points -/

@[inline] instance [Neg R] : Neg (Point R) := ⟨fun a => ⟨-a.re, -a.im⟩⟩

@[inline] instance [Add R] : Add (Point R) := ⟨fun a b => ⟨a.re + b.re, a.im + b.im⟩⟩

@[inline] instance [Sub R] : Sub (Point R) := ⟨fun a b => ⟨a.re - b.re, a.im - b.im⟩⟩

@[inline] instance [Add R] [Sub R] [Mul R] : Mul (Point R) :=
  ⟨fun a b => ⟨a.re * b.re - a.im * b.im, a.re * b.im + a.im * b.re⟩⟩

/-- The square of the distance from zero. -/
@[inline] def normSq [Add R] [Mul R] (a : Point R) : R :=
  a.re * a.re + a.im * a.im

@[inline] instance [Add R] [Sub R] [Mul R] [Div R] : Div (Point R) :=
  ⟨fun a b =>
    let n := b.normSq
    ⟨(a.re * b.re + a.im * b.im) / n, (a.im * b.re - a.re * b.im) / n⟩⟩

@[inline] instance [Add R] [Mul R] [Div R] [Neg R] : Inv (Point R) :=
  ⟨fun a =>
    let n := a.normSq
    ⟨a.re / n, -a.im / n⟩⟩

/-! ## Points with reals -/

@[inline] instance [Add R] : HAdd (Point R) R (Point R) := ⟨fun a x => ⟨a.re + x, a.im⟩⟩

@[inline] instance [Sub R] : HSub (Point R) R (Point R) := ⟨fun a x => ⟨a.re - x, a.im⟩⟩

@[inline] instance [Mul R] : HMul (Point R) R (Point R) := ⟨fun a x => ⟨a.re * x, a.im * x⟩⟩

@[inline] instance [Div R] : HDiv (Point R) R (Point R) := ⟨fun a x => ⟨a.re / x, a.im / x⟩⟩

/-! ## Distance and angle -/

@[inline] instance [Elementary R] : Modulus (Point R) R := ⟨fun a => Elementary.hypot a.re a.im⟩

/-- The angle of a point seen from zero. -/
@[inline] def angle [Elementary R] (a : Point R) : R :=
  Elementary.atan2 a.im a.re

@[inline] instance [Finiteness R] : FinitePoint (Point R) :=
  ⟨fun a => Finiteness.isFinite a.re && Finiteness.isFinite a.im⟩

end Point

end Argand
