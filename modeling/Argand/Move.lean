import Argand.Viewport

/-!
# Moves

A `Move` is something done to a value that is set up on a viewport. It may fail, and the value is there afterwards
all the same, as the move has left it (`Move.left`). Most moves go to another viewport (`Move.relocate`), and fail if
there is none.
-/

namespace Argand

/-- Why a move fails. -/
inductive MoveError (R : Type) where
  | view (e : ViewError R)
  /-- A counter has no room for what is to be counted. -/
  | overflow
deriving Repr

/-- What is done to an `S`, and may fail. -/
abbrev Move (R S : Type) := EStateM (MoveError R) S

namespace Move

variable {R S : Type}

/-- What a move leaves, whether it fails or not. -/
def left (move : Move R S Unit) (s : S) : S :=
  match move s with
  | .ok _ s' => s'
  | .error _ s' => s'

/-- Does what may overflow. -/
@[inline] def attempt (next? : S → Option S) : Move R S Unit := do
  match next? (← get) with
  | some s => set s
  | none => throw .overflow

/-- Puts a value on another viewport, which is made of the one that it is on. -/
def relocate [Zero R] [LT R] [Finiteness R] (viewport : S → Viewport R) (put : S → Viewport R → S)
    (change : Viewport R → Except (ViewError R) (Viewport R)) : Move R S Unit := do
  match change (viewport (← get)) with
  | .ok v => modify (put · v)
  | .error e => throw (.view e)

end Move

end Argand
