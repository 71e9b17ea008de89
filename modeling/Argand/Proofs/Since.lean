/-!
# Counting since the last start

In a history of commands some start something over and some count towards it. What matters is how many of
the second kind there are behind the last of the first kind (`countSince`), and what one more command does
to that (`countSince_append`).
-/

namespace Argand

variable {γ : Type} (starts counts : γ → Bool)

/-- The number of commands that count since the last one that starts over. -/
def countSince (history : List γ) : Nat :=
  (history.reverse.takeWhile (! starts ·)).countP counts

theorem countSince_append (history : List γ) (c : γ) : countSince starts counts (history ++ [c]) =
    if starts c then 0
    else if counts c then countSince starts counts history + 1
    else countSince starts counts history := by
  rw [countSince, List.reverse_append, List.reverse_singleton, List.singleton_append, List.takeWhile_cons]
  cases starts c with
  | true => rfl
  | false =>
    rw [Bool.not_false, if_pos rfl, List.countP_cons]
    cases counts c <;> rfl

end Argand
