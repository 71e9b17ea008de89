import Mathlib.Data.List.Forall2

/-!
# Outcomes

Readers and checks give `Except` values. An outcome that is a success came from successes all
along : `bind_eq_ok`, `map_eq_ok` and `mapM_eq_ok` take one apart, one step of a computation at a
time. An outcome that is a failure has the error of the first step that failed (`error?_bind`,
`error?_mapM`).
-/

namespace Argand

variable {ε α β : Type}

theorem bind_eq_ok {x : Except ε α} {f : α → Except ε β} {b : β} :
    x >>= f = .ok b ↔ ∃ a, x = .ok a ∧ f a = .ok b := by
  cases x with
  | error e => simp [bind, Except.bind]
  | ok a => simp [bind, Except.bind]

theorem bind_eq_error {x : Except ε α} {f : α → Except ε β} {e : ε} :
    x >>= f = .error e ↔ x = .error e ∨ ∃ a, x = .ok a ∧ f a = .error e := by
  cases x with
  | error e => simp [bind, Except.bind]
  | ok a => simp [bind, Except.bind]

theorem ok_bind (a : α) (f : α → Except ε β) : (Except.ok a >>= f) = f a :=
  rfl

theorem map_eq_ok {x : Except ε α} {f : α → β} {b : β} :
    x.map f = .ok b ↔ ∃ a, x = .ok a ∧ f a = b := by
  cases x with
  | error e => simp [Except.map]
  | ok a => simp [Except.map]

theorem map_eq_error {x : Except ε α} {f : α → β} {e : ε} : x.map f = .error e ↔ x = .error e := by
  cases x with
  | error e => simp [Except.map]
  | ok a => simp [Except.map]

theorem mapError_eq_ok {ε' : Type} {x : Except ε α} {f : ε → ε'} {a : α} : x.mapError f = .ok a ↔ x = .ok a := by
  cases x with
  | error e => simp [Except.mapError]
  | ok b => simp [Except.mapError]

theorem mapError_eq_error {ε' : Type} {x : Except ε α} {f : ε → ε'} {e' : ε'} :
    x.mapError f = .error e' ↔ ∃ e, x = .error e ∧ f e = e' := by
  cases x with
  | error e => simp [Except.mapError]
  | ok b => simp [Except.mapError]

@[simp] theorem isOk_map {x : Except ε α} {f : α → β} : (x.map f).isOk = x.isOk := by
  cases x <;> rfl

theorem forM_eq_ok {f : α → Except ε Unit} :
    ∀ {xs : List α}, xs.forM f = .ok () ↔ ∀ x ∈ xs, f x = .ok ()
  | [] => iff_of_true rfl nofun
  | x :: xs => by
    rw [List.forall_mem_cons, ← forM_eq_ok]
    show (f x >>= fun _ => xs.forM f) = _ ↔ _
    rw [bind_eq_ok]
    exact ⟨fun ⟨_, first, others⟩ => ⟨first, others⟩, fun ⟨first, others⟩ => ⟨_, first, others⟩⟩

/-- What is made of a list comes from its members, one of each. -/
theorem mapM_eq_ok {f : α → Except ε β} :
    ∀ {xs : List α} {ys : List β}, xs.mapM f = .ok ys ↔ List.Forall₂ (fun x y => f x = .ok y) xs ys
  | [], ys => by
    rw [List.mapM_nil, List.forall₂_nil_left_iff]
    exact ⟨fun h => (Except.ok.inj h).symm, fun h => h ▸ rfl⟩
  | x :: xs, ys => by
    rw [List.mapM_cons, bind_eq_ok, List.forall₂_cons_left_iff]
    constructor
    · rintro ⟨y, first, rest⟩
      obtain ⟨others, hothers, same⟩ := bind_eq_ok.mp rest
      exact ⟨y, others, first, mapM_eq_ok.mp hothers, (Except.ok.inj same).symm⟩
    · rintro ⟨y, others, first, hothers, rfl⟩
      exact ⟨y, first, bind_eq_ok.mpr ⟨others, mapM_eq_ok.mpr hothers, rfl⟩⟩

/-- An outcome is a success unless there is an error. -/
theorem isOk_eq_not {x : Except ε α} {p : Prop} [Decidable p] (h : (∃ e, x = .error e) ↔ p) :
    x.isOk = !decide p := by
  cases x with
  | error e =>
    have failed : p := h.mp ⟨e, rfl⟩
    rw [decide_eq_true failed]
    rfl
  | ok a =>
    have succeeded : ¬p := fun hp => by
      obtain ⟨e, impossible⟩ := h.mpr hp
      cases impossible
    rw [decide_eq_false succeeded]
    rfl

/-! ## Errors -/

/-- The error of an outcome, if it is a failure. -/
def error? : Except ε α → Option ε
  | .error e => some e
  | .ok _ => none

theorem error?_eq_some {x : Except ε α} {e : ε} : error? x = some e ↔ x = .error e := by
  cases x with
  | error e => simp [error?]
  | ok a => simp [error?]

theorem error?_eq_none {x : Except ε α} : error? x = none ↔ ∃ a, x = .ok a := by
  cases x with
  | error e => simp [error?]
  | ok a => simp [error?]

theorem error?_map {x : Except ε α} {f : α → β} : error? (x.map f) = error? x := by
  cases x <;> rfl

theorem error?_bind {x : Except ε α} {f : α → Except ε β} {rest : Option ε}
    (h : ∀ a, x = .ok a → error? (f a) = rest) : error? (x >>= f) = (error? x).or rest := by
  cases x with
  | error e => rfl
  | ok a => exact h a rfl

theorem error?_bind_ok (x : Except ε α) (f : α → β) : error? (x >>= fun a => .ok (f a)) = error? x := by
  cases x <;> rfl

theorem error?_mapM {f : α → Except ε β} :
    ∀ xs : List α, error? (xs.mapM f) = xs.findSome? fun x => error? (f x)
  | [] => rfl
  | x :: xs => by
    have others (y : β) : error? (xs.mapM f >>= fun ys => pure (y :: ys)) = error? (xs.mapM f) :=
      error?_bind_ok _ (y :: ·)
    rw [List.mapM_cons, error?_bind fun y _ => others y, error?_mapM xs, List.findSome?_cons]
    cases error? (f x) <;> rfl

end Argand
