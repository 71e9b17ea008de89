import Mathlib.Data.List.Induction
import Argand.Proofs.Move
import Argand.Proofs.Orbit.Resume
import Argand.Proofs.Passes
import Argand.Proofs.Since

/-!
# Histories of escape times in batches

A `Progressive` obeys `Command`s, in any order. A command either starts it over (`Command.restarts`), or
grants a batch, or has nothing to do with cells. Moves to a viewport that does not exist fail, and so does a batch
for which some counter has no room; both leave everything as it is. What can be seen after a history depends only on
the viewport and the parameter that are current and on the number of batches since the last start (`batches`) : as
long as there is room for so many, every cell is what their updates make of a fresh one
(`Progressive.cells_obeyAll`). The buffers, which keep what earlier passes left in them, do not show through.

The invariant is `Progressive.HasRun`. It is established by every start (`Progressive.hasRun_start`) and
carried on by every batch that does not fail (`Progressive.HasRun.advance?`). When one does, the engine stays at the
batches before, and all batches after it fail as well (`Progressive.HasTried`).
-/

namespace Argand

/-! ## Commands -/

/-- What a `Progressive` can be told to do. -/
inductive Command (R : Type) where
  | advance
  | changeView
  | reset
  | setParameter (parameter : Option (Point R))
  | resize (width height : Nat)
  | setView (center : Point R) (zoom : R)
  /-- Drawing, which changes the picture and nothing else. -/
  | render
  | employ (workers : Workers)

section Commands

variable {R : Type} [Zero R] [LT R] [DecidableLT R] [Finiteness R]

/-- Whether a command starts the orbits over. Moves do if there is such a viewport. -/
def Command.restarts : Command R → Bool
  | advance => false
  | changeView => true
  | reset => true
  | setParameter _ => true
  | resize width height => 0 < width && 0 < height
  | setView _ zoom => Finiteness.isFinite zoom && 0 < zoom
  | render => false
  | employ _ => false

/-- The viewport and the parameter after a command. -/
def Command.place : Viewport R × Option (Point R) → Command R → Viewport R × Option (Point R)
  | (v, _), setParameter parameter => (v, parameter)
  | (v, parameter), resize width height => ((v.resize width height).toOption.getD v, parameter)
  | (v, parameter), setView center zoom => ((v.setView center zoom).toOption.getD v, parameter)
  | place, _ => place

/-- Whether a command grants a batch. -/
def Command.isAdvance : Command R → Bool
  | advance => true
  | _ => false

/-- The number of batches in a history since its last start. -/
def batches (history : List (Command R)) : Nat :=
  countSince Command.restarts Command.isAdvance history

/-- The number of batches since the last start after one more command. -/
def Command.count (c : Command R) (k : Nat) : Nat :=
  if c.restarts then 0 else if c.isAdvance then k + 1 else k

theorem batches_append (history : List (Command R)) (c : Command R) :
    batches (history ++ [c]) = c.count (batches history) :=
  countSince_append Command.restarts Command.isAdvance history c

theorem Command.restarts_resize (v : Viewport R) (width height : Nat) :
    (resize width height : Command R).restarts = (v.resize width height).isOk :=
  v.isOk_resize.symm

theorem Command.restarts_setView (v : Viewport R) (center : Point R) (zoom : R) :
    (setView center zoom).restarts = (v.setView center zoom).isOk :=
  v.isOk_setView.symm

end Commands

namespace Progressive

variable {R : Type} [Zero R] [LT R] [DecidableLT R] [Finiteness R] [Add R] [Sub R] [Mul R] [Div R]
  [NatCast R] [OfScientific R]

/-- What a command does to an engine. -/
def obey : Command R → Move R (Progressive R) Unit
  | .advance => advance
  | .changeView => modify restart
  | .reset => modify restart
  | .setParameter parameter => modify (·.setParameter parameter)
  | .resize width height => resize width height
  | .setView center zoom => setView center zoom
  | .render => pure ()
  | .employ workers => modify (·.employ workers)

/-- The engine after a command. -/
def after (p : Progressive R) (c : Command R) : Progressive R :=
  (obey c).left p

/-- The engine after a history. -/
def obeyAll (p : Progressive R) (history : List (Command R)) : Progressive R :=
  history.foldl after p

/-- What an engine is set up on. -/
def place (p : Progressive R) : Viewport R × Option (Point R) :=
  (p.viewport, p.parameter)

/-- The engine after so many batches, if none of them fails. -/
def advanceBy? : Nat → Progressive R → Option (Progressive R)
  | 0, p => some p
  | k + 1, p => p.advance?.bind (advanceBy? k)

variable {p q : Progressive R} {j k : Nat}

/-! ## One batch -/

/-- A batch changes the cells and the number of updates. -/
theorem advance?_eq_some (h : p.advance? = some q) :
    q.viewport = p.viewport ∧ q.parameter = p.parameter ∧ q.executed = p.executed + updatesPerAdvance ∧
      ∀ offset < p.viewport.size, q.cells[offset]? =
        (p.cells.getD offset (.start 0)).resume? (p.parameterAt offset) updatesPerAdvance := by
  obtain ⟨state, pass, rfl⟩ := Option.map_eq_some_iff.mp h
  refine ⟨rfl, rfl, rfl, fun offset ho => ?_⟩
  exact TwinBuffer.getElem?_front_of_pass? pass (p.size_state ▸ ho)

/-- A batch fails exactly if some cell has no room for it. -/
theorem advance?_eq_none : p.advance? = none ↔ ∃ offset < p.viewport.size,
    (p.cells.getD offset (.start 0)).resume? (p.parameterAt offset) updatesPerAdvance = none := by
  rw [advance?, Option.map_eq_none_iff, TwinBuffer.pass?_eq_none, p.size_state]
  rfl

omit [DecidableLT R] [Add R] [Sub R] [Mul R] [Div R] [NatCast R] [OfScientific R] in
theorem getElem?_counts {offset : Nat} {cell : Cell R} (found : p.cells[offset]? = some cell) :
    p.counts[offset]? = some cell.counter := by
  rw [counts, Array.getElem?_map, found, Option.map_some]

/-! ## Where an engine is -/

/-- Moves and other parameters are all that changes what an engine is set up on. -/
theorem place_after (p : Progressive R) (c : Command R) : (p.after c).place = Command.place p.place c := by
  cases c with
  | advance =>
    rw [after, obey, advance, Move.left_attempt]
    cases next : p.advance? with
    | none => rfl
    | some q =>
      obtain ⟨viewport, parameter, -⟩ := advance?_eq_some next
      exact Prod.ext viewport parameter
  | resize width height =>
    show _ = ((p.viewport.resize width height).toOption.getD p.viewport, p.parameter)
    rw [after, obey, resize, Move.left_relocate]
    cases p.viewport.resize width height <;> rfl
  | setView center zoom =>
    show _ = ((p.viewport.setView center zoom).toOption.getD p.viewport, p.parameter)
    rw [after, obey, setView, Move.left_relocate]
    cases p.viewport.setView center zoom with
    | ok v =>
      show (p.lookAt v).place = (v, p.parameter)
      rw [lookAt]
      split <;> rfl
    | error _ => rfl
  | changeView | reset | setParameter _ | render | employ _ => rfl

theorem place_obeyAll (history : List (Command R)) : ∀ p : Progressive R,
    (p.obeyAll history).place = history.foldl Command.place p.place := by
  induction history with
  | nil => exact fun _ => rfl
  | cons c history ih =>
    intro p
    rw [List.foldl_cons, ← p.place_after]
    exact ih (p.after c)

/-! ## The invariant -/

/-- An engine shows what `k` batches make of fresh cells. -/
structure HasRun (p : Progressive R) (k : Nat) : Prop where
  executed : p.executed = updatesPerAdvance * k
  cells : ∀ offset < p.viewport.size, p.cells[offset]? =
    (Cell.start (p.viewport.pointAtOffset offset)).resume? (p.parameterAt offset) (updatesPerAdvance * k)

theorem hasRun_start (viewport : Viewport R) (parameter : Option (Point R)) (workers : Workers)
    (state : TwinBuffer (Cell R)) (h : state.size = viewport.size) :
    (start viewport parameter workers state h).HasRun 0 where
  executed := rfl
  cells := by
    intro offset ho
    rw [Nat.mul_zero, Cell.resume?_zero]
    exact Workers.getElem?_map workers (by rw [h]; exact ho)

theorem hasRun_new (viewport : Viewport R) (parameter : Option (Point R)) (workers : Workers) :
    (new viewport parameter workers).HasRun 0 :=
  hasRun_start ..

theorem hasRun_lookAt (p : Progressive R) (viewport : Viewport R) : (p.lookAt viewport).HasRun 0 := by
  rw [lookAt]
  split
  · exact hasRun_start ..
  · exact hasRun_new ..

namespace HasRun

theorem employ (h : p.HasRun k) (workers : Workers) : (p.employ workers).HasRun k :=
  ⟨h.executed, h.cells⟩

theorem exists_cell (h : p.HasRun k) {offset : Nat} (ho : offset < p.viewport.size) :
    ∃ cell, (Cell.start (p.viewport.pointAtOffset offset)).resume? (p.parameterAt offset) (updatesPerAdvance * k) =
      some cell ∧ p.cells[offset]? = some cell := by
  rw [← h.cells offset ho]
  have inside : offset < p.state.size := p.size_state ▸ ho
  exact ⟨_, Array.getElem?_eq_getElem inside, Array.getElem?_eq_getElem inside⟩

/-- The next batch of a cell makes of a fresh one what one batch more does. -/
theorem resume?_getD (h : p.HasRun k) {offset : Nat} (ho : offset < p.viewport.size) :
    (p.cells.getD offset (.start 0)).resume? (p.parameterAt offset) updatesPerAdvance =
      (Cell.start (p.viewport.pointAtOffset offset)).resume? (p.parameterAt offset)
        (updatesPerAdvance * (k + 1)) := by
  obtain ⟨cell, run, found⟩ := h.exists_cell ho
  rw [Nat.mul_succ, ← Cell.resume?_bind, run, Option.bind_some, Array.getD_eq_getD_getElem?, found, Option.getD_some]

theorem advance? (h : p.HasRun k) (next : p.advance? = some q) : q.HasRun (k + 1) := by
  obtain ⟨viewport, parameter, executed, cells⟩ := advance?_eq_some next
  refine ⟨by rw [executed, h.executed, Nat.mul_succ], fun offset ho => ?_⟩
  rw [viewport] at ho
  rw [cells offset ho, h.resume?_getD ho, parameterAt, parameterAt, viewport, parameter]

theorem advance?_eq_none (h : p.HasRun k) : p.advance? = none ↔ ∃ offset < p.viewport.size,
    (Cell.start (p.viewport.pointAtOffset offset)).resume? (p.parameterAt offset) (updatesPerAdvance * (k + 1)) =
      none := by
  rw [Progressive.advance?_eq_none]
  refine exists_congr fun offset => and_congr_right fun ho => ?_
  rw [h.resume?_getD ho]

/-- No batch fails as long as there is room for all updates. -/
theorem advance?_ne_none (h : p.HasRun k) (room : updatesPerAdvance * (k + 1) < 2 ^ 31) : p.advance? ≠ none := by
  rw [Ne, h.advance?_eq_none]
  rintro ⟨offset, -, failed⟩
  obtain ⟨cell, granted⟩ := Cell.exists_resume?_start (c := p.parameterAt offset)
    (z := p.viewport.pointAtOffset offset) room
  rw [granted] at failed
  cases failed

/-- Batches change neither the viewport nor the parameter. -/
theorem advanceBy? : ∀ {k j : Nat} {p : Progressive R}, p.HasRun j → advanceBy? k p = some q →
    q.HasRun (j + k) ∧ q.viewport = p.viewport ∧ q.parameter = p.parameter
  | 0, _, _, h, done => by
    cases done
    exact ⟨h, rfl, rfl⟩
  | k + 1, j, p, h, done => by
    obtain ⟨next, first, rest⟩ := Option.bind_eq_some_iff.mp done
    obtain ⟨viewport, parameter, -⟩ := advance?_eq_some first
    obtain ⟨run, viewport', parameter'⟩ := (h.advance? first).advanceBy? rest
    rw [Nat.succ_add_eq_add_succ] at run
    exact ⟨run, viewport'.trans viewport, parameter'.trans parameter⟩

theorem exists_advanceBy? : ∀ {k j : Nat} {p : Progressive R}, p.HasRun j → updatesPerAdvance * (j + k) < 2 ^ 31 →
    ∃ q, Progressive.advanceBy? k p = some q
  | 0, _, p, _, _ => ⟨p, rfl⟩
  | k + 1, j, p, h, room => by
    rw [← Nat.succ_add_eq_add_succ] at room
    have now : updatesPerAdvance * (j + 1) < 2 ^ 31 :=
      Nat.lt_of_le_of_lt (Nat.mul_le_mul_left _ (Nat.le_add_right ..)) room
    obtain ⟨next, first⟩ := Option.ne_none_iff_exists'.mp (h.advance?_ne_none now)
    obtain ⟨q, rest⟩ := (h.advance? first).exists_advanceBy? room
    exact ⟨q, by rw [Progressive.advanceBy?, first, Option.bind_some, rest]⟩

end HasRun

/-! ## Every history -/

/-- An engine shows what `k` batches make of fresh cells, or what fewer do if there is no room for another one. -/
def HasTried (p : Progressive R) (k : Nat) : Prop :=
  ∃ j ≤ k, p.HasRun j ∧ (j < k → p.advance? = none)

theorem HasRun.hasTried (h : p.HasRun k) : p.HasTried k :=
  ⟨k, Nat.le_refl k, h, fun fewer => absurd fewer (Nat.lt_irrefl k)⟩

namespace HasTried

/-- As long as there is room for all batches none of them fails. -/
theorem hasRun (h : p.HasTried k) (room : updatesPerAdvance * k < 2 ^ 31) : p.HasRun k := by
  obtain ⟨j, le, run, stuck⟩ := h
  rcases Nat.eq_or_lt_of_le le with rfl | fewer
  · exact run
  · exact absurd (stuck fewer) (run.advance?_ne_none (Nat.lt_of_le_of_lt (Nat.mul_le_mul_left _ fewer) room))

theorem advance (h : p.HasTried k) : (p.after .advance).HasTried (k + 1) := by
  obtain ⟨j, le, run, stuck⟩ := h
  have after : p.after .advance = p.advance?.getD p := Move.left_attempt ..
  rw [after]
  cases outcome : p.advance? with
  | none => exact ⟨j, Nat.le_succ_of_le le, run, fun _ => outcome⟩
  | some q =>
    rcases Nat.eq_or_lt_of_le le with rfl | fewer
    · exact (run.advance? outcome).hasTried
    · rw [stuck fewer] at outcome
      cases outcome

theorem employ (h : p.HasTried k) (workers : Workers) : (p.employ workers).HasTried k := by
  obtain ⟨j, le, run, stuck⟩ := h
  refine ⟨j, le, run.employ workers, fun fewer => ?_⟩
  rw [(run.employ workers).advance?_eq_none]
  exact run.advance?_eq_none.mp (stuck fewer)

/-- What a command makes of an engine has the batches that the command counts. -/
theorem after (h : p.HasTried k) (c : Command R) : (p.after c).HasTried (c.count k) := by
  cases c with
  | advance => exact h.advance
  | changeView | reset | setParameter _ => exact (hasRun_start _ _ _ _ p.size_state).hasTried
  | resize width height =>
    rw [Command.count, Command.restarts_resize p.viewport, Progressive.after, obey, resize, Move.left_relocate]
    cases p.viewport.resize width height with
    | ok viewport => exact (hasRun_new ..).hasTried
    | error e => exact h
  | setView center zoom =>
    rw [Command.count, Command.restarts_setView p.viewport, Progressive.after, obey, setView, Move.left_relocate]
    cases p.viewport.setView center zoom with
    | ok viewport => exact (hasRun_lookAt ..).hasTried
    | error e => exact h
  | render => exact h
  | employ workers => exact h.employ workers

/-- Every history of an engine that has just started keeps count of its batches. -/
theorem obeyAll (h : p.HasTried 0) (history : List (Command R)) :
    (p.obeyAll history).HasTried (batches history) := by
  induction history using List.reverseRec with
  | nil => exact h
  | append_singleton history c ih =>
    rw [batches_append, Progressive.obeyAll, List.foldl_append]
    exact ih.after c

end HasTried

/-- After a history of an engine, in which moves may have failed, every cell is what the batches since the
last start make of a fresh cell of the current viewport and parameter, and there is a cell for every pixel
that is drawn : a picture does not depend on what a missing cell would be taken for. -/
theorem cells_obeyAll {K : Type} [Rounding R] [Narrowing R K] [Add K] [Sub K] [Mul K] [One K]
    [Channel K] (viewport : Viewport R) (parameter : Option (Point R)) (workers : Workers)
    (history : List (Command R)) (room : updatesPerAdvance * batches history < 2 ^ 31) :
    let p := (new viewport parameter workers).obeyAll history
    p.executed = updatesPerAdvance * batches history ∧ p.cells.size = p.viewport.size ∧
      (∀ offset < p.viewport.size, ∃ cell,
        (Cell.start (p.viewport.pointAtOffset offset)).resume?
          (p.parameter.getD (p.viewport.pointAtOffset offset)) (updatesPerAdvance * batches history) = some cell ∧
        p.cells[offset]? = some cell) ∧
      ∀ (scheme : Scheme K) (target : Picture) (missing : Cell R), p.render scheme target =
        p.viewport.paint p.workers (fun offset => p.shade scheme (scheme.sampled R)
          (p.cells.getD offset missing).counter) target := by
  intro p
  have run : p.HasRun (batches history) :=
    ((hasRun_new viewport parameter workers).hasTried.obeyAll history).hasRun room
  refine ⟨run.executed, p.size_state, fun offset ho => run.exists_cell ho, ?_⟩
  intro scheme target missing
  rw [render]
  apply Viewport.paint_congr
  intro offset ho
  obtain ⟨cell, -, found⟩ := run.exists_cell ho
  rw [Array.getD_eq_getD_getElem?, Array.getD_eq_getD_getElem?, found, Option.getD_some, Option.getD_some]

/-- A history in which both kinds of moves fail, and the parameter is changed between batches. -/
theorem cells_obeyAll_failing :
    let viewport : Viewport Float :=
      ⟨3, 2, 0, 1, by decide, by decide, by decide +kernel, by decide +kernel⟩
    let history : List (Command Float) := [.advance, .resize 0 5, .setParameter (some 0), .advance,
      .setView 0 0, .employ (.ofNat 3), .render, .advance]
    let p := (new viewport none (.ofNat 1)).obeyAll history
    updatesPerAdvance * batches history < 2 ^ 31 ∧ p.executed = 400 ∧ p.cells.size = p.viewport.size := by
  intro viewport history
  have two : batches history = 2 := by decide +kernel
  have room : updatesPerAdvance * batches history < 2 ^ 31 := by rw [two]; decide
  obtain ⟨executed, size, -⟩ := cells_obeyAll (K := Float32) viewport none (.ofNat 1) history room
  rw [two] at executed
  exact ⟨room, executed, size⟩

end Progressive

end Argand
