import Argand.Point

/-!
# Newton's method

`polish` takes a point towards a root of a function by Newton's method. The method ends well at the
first point where both the value of the function and the next correction are small. It fails when a
correction is no number, and it gives up after `polishSteps` corrections. The `Basin` says where it
ended, which correction was the last one computed, and after how many corrections it ended well.
-/

namespace Argand

/-- How Newton's method ended. -/
structure Basin (R : Type) where
  root : Point R
  /-- The correction computed last. -/
  step : Point R
  /-- The number of corrections made, if the method ended well. -/
  steps : Option Nat
deriving Repr, DecidableEq

/-- The most corrections that are tried. -/
def polishSteps : Nat := 100

section Polishing

variable {R : Type} [Zero R] [Add R] [Sub R] [Mul R] [Div R] [LT R] [DecidableLT R] [Finiteness R]
  [OfScientific R] [Elementary R]

/-- The distance from zero below which a value is small. -/
def valueTolerance (R : Type) [OfScientific R] : R := 1e-2

/-- The length below which a correction is small. -/
def stepTolerance (R : Type) [OfScientific R] : R := 1e-6

/-- Whether a value and the correction there are small enough. -/
@[inline] def settled (value step : Point R) : Bool :=
  Modulus.modulus value < valueTolerance R && Modulus.modulus step < stepTolerance R

/-- Goes on from a point after `i` corrections, of which `last` was the last one. -/
@[specialize] def polishFrom (f df : Point R → Point R) (i : Nat) :
    Nat → Point R → Point R → Basin R
  | 0, c, last => ⟨c, last, none⟩
  | left + 1, c, _ =>
    let value := f c
    let step := value / df c
    if !FinitePoint.isFinite step then ⟨c, step, none⟩
    else if settled value step then ⟨c, step, some i⟩
    else polishFrom f df (i + 1) left (c - step) step

/-- Newton's method for a function and its derivative. -/
@[inline] def polish (f df : Point R → Point R) (start : Point R) : Basin R :=
  polishFrom f df 0 polishSteps start 0

end Polishing

end Argand
