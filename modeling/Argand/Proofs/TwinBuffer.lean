import Mathlib.Data.List.Induction
import Argand.Proofs.Schedule
import Argand.Proofs.Since
import Argand.TwinBuffer

/-!
# Twin buffers are lists

Seen from outside, a `TwinBuffer` is the list of the cells in front : every command does to that list what
it says (`Command.onList`), a pass computing each new cell from the whole old list. The buffer behind, in
which cells of earlier passes remain, does not show : buffers that are alike in front (`Alike`) stay so
under every command, whatever is behind. That a pass fills the buffer behind in place, in any order, makes
no difference, since it reads only the one in front (`front_pass_of_follow?`).

`refines_list` puts this together for every history of a new buffer.
-/

namespace Argand.TwinBuffer

variable {α : Type}

/-! ## Commands -/

/-- What a twin buffer can be told to do. -/
inductive Command (α : Type) where
  /-- Both buffers are replaced by new ones. -/
  | resize (size : Nat) (value : α)
  | fill (workers : Workers) (cell : Nat → α)
  | pass (workers : Workers) (cell : Nat → List α → α)

/-- A command starts the buffers over. -/
def Command.renews : Command α → Bool
  | resize _ _ => true
  | fill _ _ => false
  | pass _ _ => false

/-- A command exchanges the buffers. -/
def Command.turns : Command α → Bool
  | resize _ _ => false
  | fill _ _ => false
  | pass _ _ => true

/-- What a command does to a list. -/
def Command.onList (cells : List α) : Command α → List α
  | resize size value => List.replicate size value
  | fill _ cell => (List.range cells.length).map cell
  | pass _ cell => (List.range cells.length).map fun i => cell i cells

/-- What a command does to a twin buffer. -/
def obey (b : TwinBuffer α) : Command α → TwinBuffer α
  | .resize size value => new size value
  | .fill workers cell => b.fill workers cell
  | .pass workers cell => b.pass workers fun i cells => cell i cells.toList

/-- A twin buffer after a history. -/
def obeyAll (b : TwinBuffer α) (history : List (Command α)) : TwinBuffer α :=
  history.foldl obey b

/-- The number of passes in a history since the buffers were last renewed. -/
def passes (history : List (Command α)) : Nat :=
  countSince Command.renews Command.turns history

/-! ## In front -/

theorem toList_front_obey (b : TwinBuffer α) (c : Command α) :
    (b.obey c).front.toList = c.onList b.front.toList := by
  cases c with
  | resize size value => exact Array.toList_replicate
  | fill workers cell => exact Workers.toList_map ..
  | pass workers cell => exact Workers.toList_map ..

theorem toList_front_obeyAll (history : List (Command α)) : ∀ b : TwinBuffer α,
    (b.obeyAll history).front.toList = history.foldl Command.onList b.front.toList := by
  induction history with
  | nil => exact fun b => rfl
  | cons c history ih =>
    intro b
    rw [List.foldl_cons, ← toList_front_obey]
    exact ih (b.obey c)

/-- A pass that fills the buffer behind in place, in whatever order, brings the cells of the pass to the
front. -/
theorem front_pass_of_follow? (b : TwinBuffer α) (w w' : Workers) (cell : Nat → Array α → α)
    {schedule : List Nat} {p : Work α}
    (run : (Work.start w b.back).follow? (fun i => cell i b.front) schedule = some p)
    (finished : p.Finished) : p.out = (b.pass w' cell).front := by
  have consistent := (Work.consistent_start w (fun i => cell i b.front) b.back).follow run
  rw [consistent.out_eq finished w', b.size_back]
  rfl

theorem front_fill_of_follow? (b : TwinBuffer α) (w w' : Workers) (cell : Nat → α)
    {schedule : List Nat} {p : Work α}
    (run : (Work.start w b.front).follow? cell schedule = some p) (finished : p.Finished) :
    p.out = (b.fill w' cell).front :=
  ((Work.consistent_start w cell b.front).follow run).out_eq finished w'

/-! ## Behind -/

/-- Two twin buffers show the same, though they may have different cells behind. -/
structure Alike (b c : TwinBuffer α) : Prop where
  front : b.front = c.front
  turned : b.turned = c.turned

theorem Alike.obey {b c : TwinBuffer α} (h : Alike b c) (command : Command α) :
    Alike (b.obey command) (c.obey command) := by
  cases command with
  | resize size value => exact ⟨rfl, rfl⟩
  | fill workers cell =>
    refine ⟨?_, h.turned⟩
    show workers.map b.front.size cell = workers.map c.front.size cell
    rw [h.front]
  | pass workers cell =>
    refine ⟨?_, congrArg (! ·) h.turned⟩
    show workers.map b.front.size (fun i => cell i b.front.toList) =
      workers.map c.front.size fun i => cell i c.front.toList
    rw [h.front]

theorem Alike.obeyAll (history : List (Command α)) : ∀ {b c : TwinBuffer α}, Alike b c →
    Alike (b.obeyAll history) (c.obeyAll history) := by
  induction history with
  | nil => exact fun h => h
  | cons command history ih => exact fun h => ih (h.obey command)

/-! ## The index -/

theorem index_obey (b : TwinBuffer α) (c : Command α) :
    (b.obey c).index = if c.renews then 0 else if c.turns then (b.index + 1) % 2 else b.index := by
  cases c with
  | resize size value => rfl
  | fill workers cell => rfl
  | pass workers cell =>
    show (if (!b.turned) = true then 1 else 0) = ((if b.turned = true then 1 else 0) + 1) % 2
    cases b.turned <;> rfl

theorem index_obeyAll (size : Nat) (value : α) (history : List (Command α)) :
    ((new size value).obeyAll history).index = passes history % 2 := by
  induction history using List.reverseRec with
  | nil => rfl
  | append_singleton history c ih =>
    rw [obeyAll, List.foldl_append, List.foldl_cons, List.foldl_nil, ← obeyAll, index_obey, ih, passes,
      passes, countSince_append]
    split
    · rfl
    · split
      · exact Nat.mod_add_mod ..
      · rfl

/-! ## Every history -/

/-- After any history of a new twin buffer, the cells in front are those of a list that has obeyed the
same commands, both buffers have the length of that list, and the index is even or odd as the passes
since the last renewal are. Whatever cells were behind instead, nothing would show of them, then or later.
Filling and passes may also be done in place, by any workers in any order. -/
theorem refines_list (size : Nat) (value : α) (history : List (Command α)) :
    let b := (new size value).obeyAll history
    let cells := history.foldl Command.onList (List.replicate size value)
    b.front.toList = cells ∧ b.front.size = cells.length ∧ b.back.size = cells.length ∧
      b.index = passes history % 2 ∧
      (∀ (behind : Array α) (h : behind.size = b.front.size) (future : List (Command α)),
        let c : TwinBuffer α := ⟨b.front, behind, b.turned, h⟩
        (c.obeyAll future).front = (b.obeyAll future).front ∧
          (c.obeyAll future).index = (b.obeyAll future).index) ∧
      ∀ (w w' : Workers) (schedule : List Nat) (p : Work α), p.Finished →
        (∀ cell : Nat → List α → α,
          (Work.start w b.back).follow? (fun i => cell i b.front.toList) schedule = some p →
            p.out = (b.obey (.pass w' cell)).front ∧ b.front = (b.obey (.pass w' cell)).back) ∧
        ∀ cell : Nat → α, (Work.start w b.front).follow? cell schedule = some p →
          p.out = (b.obey (.fill w' cell)).front := by
  intro b cells
  have front : b.front.toList = cells := by
    have model := toList_front_obeyAll history (new size value)
    rwa [new, Array.toList_replicate] at model
  have length : b.front.size = cells.length := by
    rw [← Array.length_toList, front]
  refine ⟨front, length, b.size_back.trans length, index_obeyAll size value history, ?_, ?_⟩
  · intro behind h future c
    have alike : Alike c b := ⟨rfl, rfl⟩
    have later := alike.obeyAll future
    refine ⟨later.front, ?_⟩
    rw [index, index, later.turned]
  · intro w w' schedule p finished
    refine ⟨fun cell run => ⟨?_, rfl⟩, fun cell run => b.front_fill_of_follow? w w' cell run finished⟩
    exact b.front_pass_of_follow? w w' (fun i cells => cell i cells.toList) run finished

end Argand.TwinBuffer
