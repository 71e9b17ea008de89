import Argand.Point

/-!
# Regions without roots

`search` tries to show that no Littlewood polynomial has a root at a point `z`. It follows the
partial sums `1 ± z ± z² …` for all signs, and gives up a sum that is too far from zero for the
powers still to come. When no sum is left there can be no root. The search is given up itself when a
sum comes very near to zero, when too many sums are waiting, or after many steps : then roots are
possible.

If `z` is a root of a Littlewood polynomial then so is `z⁻¹`, so points outside the unit circle are
taken to its inside first (`verdict`). Near the circle there is no hope and no search.
-/

namespace Argand.Littlewood

/-- Whether Littlewood polynomials may have a root at a point. -/
inductive Verdict where
  /-- None of them has one. -/
  | excluded
  /-- Nothing has been shown. -/
  | possible
deriving Repr, DecidableEq

/-- A partial sum that waits for its next term. -/
structure PartialSum (A R : Type) where
  value : A
  /-- How far the terms still to come can reach. -/
  reach : R
  /-- The power of the last term. -/
  power : A

section Search

variable {A R : Type} [One A] [Add A] [Sub A] [Mul A] [Inv A] [Modulus A R] [LT R] [DecidableLT R]
  [One R] [Sub R] [Div R] [OfScientific R]

/-- The number of waiting sums at which the search is given up. -/
def mostWaiting : Nat := 21

/-- The number of sums that are looked at before the search is given up. -/
def searchSteps : Nat := 100

/-- A distance from zero that counts as none. -/
def nearZero (R : Type) [OfScientific R] : R := 1e-8

/-- The distance from zero beyond which no search is made. -/
def searchRadius (R : Type) [OfScientific R] : R := 0.84089

/-- Puts a sum on the stack if it may still come back to zero. -/
@[inline] def PartialSum.push (stack : List (PartialSum A R)) (s : PartialSum A R) :
    List (PartialSum A R) :=
  if Modulus.modulus s.value < s.reach then s :: stack else stack

/-- Replaces the sum on top of the stack by the two with one term more, as far as they may come back
to zero. There is no new stack if one of them is very near to zero. -/
@[specialize] def expand? (z : A) (top : PartialSum A R) (rest : List (PartialSum A R)) :
    Option (List (PartialSum A R)) :=
  let power := top.power * z
  let reach := top.reach - Modulus.modulus power
  let plus := top.value + power
  let minus := top.value - power
  if Modulus.modulus plus < nearZero R || Modulus.modulus minus < nearZero R then none
  else some (PartialSum.push (PartialSum.push rest ⟨plus, reach, power⟩) ⟨minus, reach, power⟩)

/-- Goes on with a search for some steps. -/
@[specialize] def search (z : A) : Nat → List (PartialSum A R) → Verdict
  | _, [] => .excluded
  | 0, _ :: _ => .possible
  | n + 1, top :: rest =>
    match expand? z top rest with
    | none => .possible
    | some stack => if mostWaiting ≤ stack.length then .possible else search z n stack

/-- What can be shown about a point in the unit disk at a distance `r` from zero. -/
@[inline] def verdictInside (z : A) (r : R) : Verdict :=
  if searchRadius R < r then .possible else search z searchSteps [⟨1, r / (1 - r), 1⟩]

/-- What can be shown about a point. -/
@[inline] def verdict (z : A) : Verdict :=
  let r : R := Modulus.modulus z
  if 1 < r then verdictInside z⁻¹ (1 / r) else verdictInside z r

end Search

end Argand.Littlewood
