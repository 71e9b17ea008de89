import Argand.Proofs.Expr.Derivation

/-!
# What may follow a phrase

A phrase stays one where something else follows it. Nothing in a rule looks further than its phrase, but for
a name, which is not called where no parenthesis follows it : so a text can stand where another one stands if
it brings no parenthesis that was not there (`Replaces`). `Expression.reframe` and its like cut the tokens of
a phrase off and put them in front of another text.
-/

namespace Argand

namespace Derives

variable {limit : Nat}

/-- A text can stand where another one stands as far as a name before it can see, which has to know whether
it is called. -/
def Replaces (rest' rest : List Token) : Prop :=
  rest'.head? = some .opening → rest.head? = some .opening

/-- The end of a text can stand where anything stands. -/
theorem Replaces.nil {rest : List Token} : Replaces [] rest := by
  rintro ⟨⟩

/-- A text that does not begin with a parenthesis can stand where anything stands. -/
theorem Replaces.cons {t : Token} {ts rest : List Token} (plain : (t == .opening) = false) :
    Replaces (t :: ts) rest :=
  fun opens => absurd (Option.some.inj opens) (beq_eq_false_iff_ne.mp plain)

theorem opensOperand_append {us rest rest' : List Token} (nonempty : us ≠ []) :
    opensOperand (us ++ rest') = opensOperand (us ++ rest) := by
  cases us with
  | nil => exact absurd rfl nonempty
  | cons t us => cases t <;> rfl

theorem replaces_append {us rest rest' : List Token} (nonempty : us ≠ []) :
    Replaces (us ++ rest') (us ++ rest) := by
  cases us with
  | nil => exact absurd rfl nonempty
  | cons t us => exact id

mutual

/-- A phrase stays one where something else follows it. -/
theorem Expression.reframe {d n ts e rest} : Expression limit d n ts e rest →
    ∃ us, ts = us ++ rest ∧ ∀ {rest'}, Replaces rest' rest → Expression limit d n (us ++ rest') e rest'
  | .one first => by
    obtain ⟨us, rfl, hfirst⟩ := first.reframe
    exact ⟨us, rfl, fun replaces => .one (hfirst replaces)⟩
  | .plus before next => by
    obtain ⟨us, rfl, hbefore⟩ := before.reframe
    obtain ⟨vs, rfl, hnext⟩ := next.reframe
    refine ⟨us ++ .plus :: vs, (List.append_assoc us (.plus :: vs) rest).symm, fun {rest'} replaces => ?_⟩
    rw [List.append_assoc]
    exact .plus (hbefore (.cons rfl)) (hnext replaces)
  | .minus before next => by
    obtain ⟨us, rfl, hbefore⟩ := before.reframe
    obtain ⟨vs, rfl, hnext⟩ := next.reframe
    refine ⟨us ++ .minus :: vs, (List.append_assoc us (.minus :: vs) rest).symm, fun {rest'} replaces => ?_⟩
    rw [List.append_assoc]
    exact .minus (hbefore (.cons rfl)) (hnext replaces)

theorem Term.reframe {d n ts e rest} : Term limit d n ts e rest →
    ∃ us, ts = us ++ rest ∧ ∀ {rest'}, Replaces rest' rest → Term limit d n (us ++ rest') e rest'
  | .one first => by
    obtain ⟨us, rfl, hfirst⟩ := first.reframe
    exact ⟨us, rfl, fun replaces => .one (hfirst replaces)⟩
  | .times before next => by
    obtain ⟨us, rfl, hbefore⟩ := before.reframe
    obtain ⟨vs, rfl, hnext⟩ := next.reframe
    refine ⟨us ++ .times :: vs, (List.append_assoc us (.times :: vs) rest).symm, fun {rest'} replaces => ?_⟩
    rw [List.append_assoc]
    exact .times (hbefore (.cons rfl)) (hnext replaces)
  | .divide before next => by
    obtain ⟨us, rfl, hbefore⟩ := before.reframe
    obtain ⟨vs, rfl, hnext⟩ := next.reframe
    refine ⟨us ++ .divide :: vs, (List.append_assoc us (.divide :: vs) rest).symm, fun {rest'} replaces => ?_⟩
    rw [List.append_assoc]
    exact .divide (hbefore (.cons rfl)) (hnext replaces)
  | .juxtaposed before opens next => by
    have progress := next.length_lt
    obtain ⟨us, rfl, hbefore⟩ := before.reframe
    obtain ⟨vs, rfl, hnext⟩ := next.reframe
    refine ⟨us ++ vs, (List.append_assoc us vs rest).symm, fun {rest'} replaces => ?_⟩
    -- the second operand is not empty, so what the first one has to see stays the same
    have nonempty : vs ≠ [] := by
      rintro rfl
      exact absurd progress (Nat.lt_irrefl _)
    rw [List.append_assoc]
    exact .juxtaposed (hbefore (replaces_append nonempty)) (opensOperand_append nonempty ▸ opens)
      (hnext replaces)

theorem Signed.reframe {d ts e rest} : Signed limit d ts e rest →
    ∃ us, ts = us ++ rest ∧ ∀ {rest'}, Replaces rest' rest → Signed limit d (us ++ rest') e rest'
  | .minus room operand => by
    obtain ⟨us, rfl, hoperand⟩ := operand.reframe
    exact ⟨.minus :: us, rfl, fun replaces => .minus room (hoperand replaces)⟩
  | .plus room operand => by
    obtain ⟨us, rfl, hoperand⟩ := operand.reframe
    exact ⟨.plus :: us, rfl, fun replaces => .plus room (hoperand replaces)⟩
  | .power room inside => by
    obtain ⟨us, rfl, hinside⟩ := inside.reframe
    exact ⟨us, rfl, fun replaces => .power room (hinside replaces)⟩

theorem Power.reframe {d ts e rest} : Power limit d ts e rest →
    ∃ us, ts = us ++ rest ∧ ∀ {rest'}, Replaces rest' rest → Power limit d (us ++ rest') e rest'
  | .base only => by
    obtain ⟨us, rfl, honly⟩ := only.reframe
    exact ⟨us, rfl, fun replaces => .base (honly replaces)⟩
  | .raised below above => by
    obtain ⟨us, rfl, hbelow⟩ := below.reframe
    obtain ⟨vs, rfl, habove⟩ := above.reframe
    refine ⟨us ++ .power :: vs, (List.append_assoc us (.power :: vs) rest).symm, fun {rest'} replaces => ?_⟩
    rw [List.append_assoc]
    exact .raised (hbelow (.cons rfl)) (habove replaces)

theorem Primary.reframe {d ts e rest} : Primary limit d ts e rest →
    ∃ us, ts = us ++ rest ∧ ∀ {rest'}, Replaces rest' rest → Primary limit d (us ++ rest') e rest'
  | .number => ⟨[_], rfl, fun _ => .number⟩
  | .name uncalled => ⟨[_], rfl, fun replaces => .name (mt replaces uncalled)⟩
  | .call inside => by
    obtain ⟨us, rfl, hinside⟩ := inside.reframe
    exact ⟨_ :: .opening :: us, rfl, fun {_} _ => .call hinside⟩
  | .group inside => by
    obtain ⟨us, rfl, hinside⟩ := inside.reframe
    refine ⟨.opening :: (us ++ [.closing]), by simp, fun {rest'} _ => ?_⟩
    rw [List.cons_append, List.append_assoc]
    exact .group (hinside (.cons rfl))

/-- The closing parenthesis of a call is in the phrase, so that anything may follow it. -/
theorem Operands.reframe {d ts es rest} : Operands limit d ts es rest →
    ∃ us, ts = us ++ rest ∧ ∀ {rest'}, Operands limit d (us ++ rest') es rest'
  | .none => ⟨[_], rfl, .none⟩
  | .some inside => by
    obtain ⟨us, rfl, hinside⟩ := inside.reframe
    exact ⟨us, rfl, .some hinside⟩

theorem Separated.reframe {d ts es rest} : Separated limit d ts es rest →
    ∃ us, ts = us ++ rest ∧ ∀ {rest'}, Separated limit d (us ++ rest') es rest'
  | .last only => by
    obtain ⟨us, rfl, honly⟩ := only.reframe
    refine ⟨us ++ [.closing], by simp, fun {rest'} => ?_⟩
    rw [List.append_assoc]
    exact .last (honly (.cons rfl))
  | .more first others => by
    obtain ⟨us, rfl, hfirst⟩ := first.reframe
    obtain ⟨vs, rfl, hothers⟩ := others.reframe
    refine ⟨us ++ .comma :: vs, (List.append_assoc us (.comma :: vs) rest).symm, fun {rest'} => ?_⟩
    rw [List.append_assoc]
    exact .more (hfirst (.cons rfl)) hothers

end

theorem Expression.replace {d n us e rest rest'} (h : Expression limit d n (us ++ rest) e rest)
    (replaces : Replaces rest' rest) : Expression limit d n (us ++ rest') e rest' := by
  obtain ⟨us', same, h⟩ := h.reframe
  rw [List.append_cancel_right same]
  exact h replaces

theorem Term.replace {d n us e rest rest'} (h : Term limit d n (us ++ rest) e rest)
    (replaces : Replaces rest' rest) : Term limit d n (us ++ rest') e rest' := by
  obtain ⟨us', same, h⟩ := h.reframe
  rw [List.append_cancel_right same]
  exact h replaces

theorem Primary.replace {d us e rest rest'} (h : Primary limit d (us ++ rest) e rest)
    (replaces : Replaces rest' rest) : Primary limit d (us ++ rest') e rest' := by
  obtain ⟨us', same, h⟩ := h.reframe
  rw [List.append_cancel_right same]
  exact h replaces

end Derives

end Argand

