import Argand.Workers

/-!
# Twin buffers

A `TwinBuffer` is a pair of buffers of one size, one in front and one behind it. A pass
(`TwinBuffer.pass`) reads the buffer in front and fills the one behind, which then comes to the
front. So no cell is read that has already been written in the same pass. If a cell cannot be
computed (`TwinBuffer.pass?`), the buffer behind stays there. Filling the buffer in front from
scratch (`TwinBuffer.fill`) leaves the other one as it is.
-/

namespace Argand

/-- Two buffers of one size, one in front of the other. -/
structure TwinBuffer (α : Type) where
  front : Array α
  back : Array α
  /-- Whether the buffers are the other way round than at first. -/
  turned : Bool
  size_back : back.size = front.size

namespace TwinBuffer

variable {α : Type}

/-- Two buffers with the same value everywhere. -/
def new (size : Nat) (value : α) : TwinBuffer α :=
  ⟨Array.replicate size value, Array.replicate size value, false, rfl⟩

/-- The number of cells of each buffer. -/
def size (b : TwinBuffer α) : Nat :=
  b.front.size

/-- Which of the two buffers is in front, zero at first. -/
def index (b : TwinBuffer α) : Nat :=
  if b.turned then 1 else 0

/-- Exchanges the places of the buffers. -/
def swap (b : TwinBuffer α) : TwinBuffer α :=
  ⟨b.back, b.front, !b.turned, b.size_back.symm⟩

/-- Fills the buffer in front. -/
@[inline] def fill (b : TwinBuffer α) (workers : Workers) (cell : Nat → α) :
    TwinBuffer α :=
  { b with
    front := workers.map b.size cell
    size_back := by simp [size, b.size_back] }

/-- Fills the buffer behind from the one in front, and brings it to the front. -/
@[inline] def pass (b : TwinBuffer α) (workers : Workers) (cell : Nat → Array α → α) :
    TwinBuffer α :=
  { front := workers.map b.size fun i => cell i b.front
    back := b.front
    turned := !b.turned
    size_back := by simp [size] }

/-- A pass in which cells may fail. It has buffers of the size of those that it began with. -/
@[inline] def pass? (b : TwinBuffer α) (workers : Workers) (cell : Nat → Array α → Option α) :
    Option { after : TwinBuffer α // after.size = b.size } :=
  (workers.map? b.size fun i => cell i b.front).map fun cells =>
    ⟨⟨cells.toArray, b.front, !b.turned, cells.size_toArray.symm⟩, cells.size_toArray⟩

end TwinBuffer

end Argand
