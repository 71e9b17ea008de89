import Argand.Littlewood.Table
import Argand.Overflow

/-!
# Places in a table, in words

`Shape` computes with whole numbers. A `WordShape` computes the same in words of sixty-four bits, as addresses are
asked for one by one. Where a shift, a sum or a product has no room in a word there is no result, and so there is none
where nothing can be divided. So very large tables have a `Shape` but not all measures in words.
-/

namespace Argand.Littlewood

/-- The measures of a table in words. -/
structure WordShape where
  /-- The number of slots of a polynomial. -/
  maxDegree : UInt64
  /-- The number of slots of a row. -/
  width : UInt64
deriving Repr, DecidableEq

/-- The measures of a table, in words. -/
def Shape.words (s : Shape) : WordShape :=
  ⟨s.maxDegree.toUInt64, s.width.toUInt64⟩

namespace WordShape

/-- The number of polynomials. -/
def polynomials? (s : WordShape) : Option UInt64 := do
  Word.shiftLeft? 1 (← Word.add? s.maxDegree 1)

/-- The number of slots. -/
def slots? (s : WordShape) : Option UInt64 := do
  Word.mul? (← s.polynomials?) s.maxDegree

/-- The number of rows, the last of which may not be full. -/
def height? (s : WordShape) : Option UInt64 := do
  Word.div? (← Word.sub? (← Word.add? (← s.slots?) s.width) 1) s.width

/-- The address of a slot of a polynomial. -/
def address? (s : WordShape) (id slot : UInt64) : Option UInt64 := do
  Word.add? (← Word.mul? id s.maxDegree) slot

/-- The polynomial and its slot at an address. -/
def split? (s : WordShape) (address : UInt64) : Option (UInt64 × UInt64) := do
  return (← Word.div? address s.maxDegree, ← Word.mod? address s.maxDegree)

/-- The row and the column of an address. -/
def coordinate? (s : WordShape) (address : UInt64) : Option (UInt64 × UInt64) := do
  return (← Word.div? address s.width, ← Word.mod? address s.width)

/-- The polynomial and its slot at a row and a column. -/
def decode? (s : WordShape) (row column : UInt64) : Option (UInt64 × UInt64) := do
  s.split? (← Word.add? (← Word.mul? row s.width) column)

end WordShape

end Argand.Littlewood
