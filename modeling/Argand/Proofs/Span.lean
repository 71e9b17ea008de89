/-!
# Spans

A reader takes characters of a kind for as long as they last. If what follows them is not of the kind
(`Ends`), the characters taken are determined by the text (`takeWhile_of_ends`), and a text can be cut
into characters of the kind and such a rest in only one way (`span_unique`).
-/

namespace Argand

/-- A text does not begin with a character of a kind. -/
def Ends (kind : Char → Bool) : List Char → Prop
  | [] => True
  | c :: _ => kind c = false

variable {kind : Char → Bool} {cs ds rest rest' : List Char}

theorem takeWhile_of_ends (hcs : ∀ c ∈ cs, kind c = true) (ends : Ends kind rest) :
    (cs ++ rest).takeWhile kind = cs := by
  rw [List.takeWhile_append_of_pos hcs]
  cases rest with
  | nil => simp
  | cons c rest =>
    have hc : kind c = false := ends
    simp [hc]

theorem dropWhile_of_ends (hcs : ∀ c ∈ cs, kind c = true) (ends : Ends kind rest) :
    (cs ++ rest).dropWhile kind = rest := by
  rw [List.dropWhile_append_of_pos hcs]
  cases rest with
  | nil => rfl
  | cons c rest =>
    have hc : kind c = false := ends
    simp [hc]

theorem ends_dropWhile (cs : List Char) : Ends kind (cs.dropWhile kind) := by
  induction cs with
  | nil => trivial
  | cons c cs ih =>
    rw [List.dropWhile_cons]
    split
    · exact ih
    · next other => exact Bool.eq_false_iff.mpr other

theorem span_unique (hcs : ∀ c ∈ cs, kind c = true) (hds : ∀ c ∈ ds, kind c = true)
    (ends : Ends kind rest) (ends' : Ends kind rest') (same : cs ++ rest = ds ++ rest') :
    cs = ds ∧ rest = rest' := by
  have first : cs = ds := by
    rw [← takeWhile_of_ends hcs ends, same, takeWhile_of_ends hds ends']
  subst first
  exact ⟨rfl, List.append_cancel_left same⟩

end Argand
