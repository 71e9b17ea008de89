import Argand.Move

/-!
# What moves leave

A move that goes to another viewport leaves the value there, or as it was if there is no such viewport
(`Move.relocate_eq`). A move that may overflow leaves what comes next, or the value as it was (`Move.attempt_eq`). So
both are `Move.Atomic` : nothing is left of one that fails.
-/

namespace Argand.Move

variable {R S : Type}

/-- Where the move fails it leaves the value as it was. -/
def Atomic (move : Move R S Unit) : Prop :=
  ∀ s error s', move s = .error error s' → s' = s

/-! ## What may overflow -/

theorem attempt_eq (next? : S → Option S) (s : S) :
    (attempt next? : Move R S Unit) s =
      match next? s with
      | some s' => .ok () s'
      | none => .error .overflow s := by
  show (match next? s with | some s' => set s' | none => throw .overflow : Move R S Unit) s = _
  cases next? s <;> rfl

theorem left_attempt (next? : S → Option S) (s : S) :
    (attempt next? : Move R S Unit).left s = (next? s).getD s := by
  rw [left, attempt_eq]
  cases next? s <;> rfl

theorem attempt_eq_error {next? : S → Option S} {s s' : S} {error : MoveError R} :
    (attempt next? : Move R S Unit) s = .error error s' ↔ next? s = none ∧ error = .overflow ∧ s' = s := by
  rw [attempt_eq]
  cases next? s with
  | some _ => simp
  | none => simp [eq_comm]

theorem atomic_attempt (next? : S → Option S) : (attempt next? : Move R S Unit).Atomic :=
  fun _ _ _ failed => (attempt_eq_error.mp failed).2.2

theorem atomic_modify (f : S → S) : (modify f : Move R S Unit).Atomic :=
  fun _ _ _ failed => nomatch failed

/-! ## Other viewports -/

section Relocate

variable [Zero R] [LT R] [Finiteness R] {viewport : S → Viewport R} {put : S → Viewport R → S}
  {change : Viewport R → Except (ViewError R) (Viewport R)}

theorem relocate_eq (s : S) :
    relocate viewport put change s =
      match change (viewport s) with
      | .ok v => .ok () (put s v)
      | .error e => .error (.view e) s := by
  show (match change (viewport s) with | .ok v => modify (put · v) | .error e => throw (.view e) : Move R S Unit) s = _
  cases change (viewport s) <;> rfl

theorem left_relocate (s : S) :
    (relocate viewport put change).left s =
      match change (viewport s) with
      | .ok v => put s v
      | .error _ => s := by
  rw [left, relocate_eq]
  cases change (viewport s) <;> rfl

theorem relocate_eq_error {s s' : S} {error : MoveError R} :
    relocate viewport put change s = .error error s' ↔
      ∃ e, change (viewport s) = .error e ∧ error = .view e ∧ s' = s := by
  rw [relocate_eq]
  cases change (viewport s) with
  | ok v => simp
  | error e => simp [eq_comm]

theorem atomic_relocate : (relocate viewport put change).Atomic := by
  intro s error s' failed
  obtain ⟨_, -, -, same⟩ := relocate_eq_error.mp failed
  exact same

end Relocate

end Argand.Move
