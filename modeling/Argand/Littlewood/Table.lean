import Argand.Littlewood.Polynomial
import Argand.Point

/-!
# Tables of roots

The estimates for the roots of all Littlewood polynomials up to some degree stand in one table. A
polynomial has a block of `maxDegree` slots in it, of which as many are in use as its degree says.
The table can also be seen as rows of some width (`Shape.coordinate`).

Estimates start at points that only depend on their place and on a seed (`seedPoint`). They are
brought nearer to the roots by the method of Durand and Kerner (`refine`), which corrects each
estimate by the value of the polynomial, divided by the product of the distances to the other
estimates of the same block.
-/

namespace Argand.Littlewood

/-! ## Places in a table -/

/-- The measures of a table. -/
structure Shape where
  /-- The number of slots of a polynomial. -/
  maxDegree : Nat
  /-- The number of slots of a row. -/
  width : Nat
deriving Repr, DecidableEq

namespace Shape

/-- The measures of a table where none are asked for. -/
def usual : Shape :=
  ⟨16, 2048⟩

/-- Whether there are columns, so that an address has a row and a column. -/
def hasColumns (s : Shape) : Bool :=
  0 < s.width

/-- Whether there are slots, so that an address belongs to a polynomial. -/
def hasSlots (s : Shape) : Bool :=
  0 < s.maxDegree

/-- The number of polynomials. -/
def polynomials (s : Shape) : Nat :=
  Nat.pow 2 (s.maxDegree + 1)

/-- The number of slots. -/
def slots (s : Shape) : Nat :=
  s.polynomials * s.maxDegree

/-- The number of rows, the last of which may not be full. -/
def height (s : Shape) : Nat :=
  (s.slots + s.width - 1) / s.width

/-- The address of a slot of a polynomial. -/
@[inline] def address (s : Shape) (id slot : Nat) : Nat :=
  id * s.maxDegree + slot

/-- The polynomial and its slot at an address. -/
@[inline] def split (s : Shape) (address : Nat) : Nat × Nat :=
  (address / s.maxDegree, address % s.maxDegree)

/-- The row and the column of an address. -/
@[inline] def coordinate (s : Shape) (address : Nat) : Nat × Nat :=
  (address / s.width, address % s.width)

/-- The polynomial and its slot at a row and a column. -/
def decode (s : Shape) (row column : Nat) : Nat × Nat :=
  s.split (row * s.width + column)

end Shape

/-! ## Where estimates start -/

/-- Mixes the bits of a word. -/
@[inline] def mixBits (x : UInt32) : UInt32 :=
  let x := x ^^^ (x >>> 16)
  let x := x * 0x7FEB352D
  let x := x ^^^ (x >>> 15)
  let x := x * 0x846CA68B
  x ^^^ (x >>> 16)

section Seeds

variable {R : Type} [Mul R] [Div R] [Sub R] [NatCast R] [OfScientific R]

/-- A word as a part of the greatest word, moved from zero and one to minus two and two. -/
@[inline] def spread (word : UInt32) : R :=
  (2.0 : R) * ((2.0 : R) * ((word.toNat : R) / ((4294967295 : Nat) : R)) - (1.0 : R))

/-- The first estimate at a row and a column. -/
@[inline] def seedPoint (row column : Nat) (seed : UInt32) : Point R :=
  let h := mixBits (column.toUInt32 ^^^ mixBits (row.toUInt32 ^^^ mixBits seed))
  ⟨spread h, spread (mixBits (h ^^^ 0x9E3779B9))⟩

end Seeds

/-! ## Corrections -/

section Refining

variable {A R : Type} [Zero A] [One A] [Mul A] [Sub A] [Div A] [HAdd A R A] [HMul A R A] [One R]
  [Neg R] [FinitePoint A]

/-- The product of the differences between `z` and the estimates of a block but for the one in slot
`k`, where `read` gives the estimates. -/
@[inline] def separation (read : Nat → A) (z : A) (base k d : Nat) : A :=
  d.fold (fun j _ product => if j = k then product else product * (z - read (base + j))) 1

/-- The next estimate at an address, for a table that is read by `read`. Slots that are not in use
keep what they hold, and so do those whose next estimate would be no point. -/
@[specialize] def refine (s : Shape) (read : Nat → A) (address : Nat) (step : R) : A :=
  let (id, k) := s.split address
  let z := read address
  let d := (degree id.toUInt32).toNat
  if d ≤ k then z
  else
    let product := separation read z (s.address id 0) k d
    let lead : R := coefficient id.toUInt32
    let next := z - evaluate (R := R) id.toUInt32 z * lead / product * step
    if FinitePoint.isFinite next then next else z

end Refining

end Argand.Littlewood
