import Argand.Proofs.Expr.Moves

/-!
# Calls of a reader with a cursor

A state of `Pushdown` that can be reached is `Sound` : the cursor is inside the text, and the calls that wait lie
between each other as they have to. From a sound state there is always a step, to another sound state, unless reading
has ended (`Sound.advances`). Every step takes some weight away, so that there are only so many of them, and none
changes the outcome that the readers of `Grammar` come to from there (`Sound.run`).

A call is under way from its entry on, as long as it waits for others (`Inside`). Steps inside it leave the calls that
wait for it alone, until it is left with the cursor behind what it has read and with the counter as it was, or all
reading has failed (`Inside.finishes`). Each call of a signed operand that waits has raised the counter, and the
counter has a limit, so that they nest no deeper (`countP_isSigned_le`).

From the first state on all of this is so for every text (`run_start`).
-/

namespace Argand.Pushdown

open Grammar

variable {stop : Nat} {ls : List Lexeme}

/-! ## Sound states -/

/-- Calls wait for one that was entered with a cursor. -/
def Waits : Cursor → List Activation → Prop
  | _, [] => True
  | callee, a :: waiting => a.todo.Between a.entry callee ∧ Waits a.entry waiting

namespace State

/-- What holds of the control of a state that can be reached. -/
def SoundControl (ls : List Lexeme) (c : Cursor) (waiting : List Activation) : Control → Prop
  | .entering _ => c.depth ≤ nestingLimit ∧ Waits c waiting
  | .leaving r entry _ => Returned ls r entry c ∧ entry.depth ≤ nestingLimit ∧ Waits entry waiting
  | .ended _ => waiting = []

/-- What holds of a state that can be reached. -/
structure Sound (ls : List Lexeme) (s : State) : Prop where
  inside : s.cursor.index ≤ ls.length
  control : SoundControl ls s.cursor s.waiting s.control

/-- A bound on the steps that are left, which gets less with each of them. -/
def weight (ls : List Lexeme) (s : State) : Nat :=
  match s.control with
  | .entering r => 12 * (s.cursor.rest ls).length + r.weight + s.waiting.length
  | .leaving _ _ _ => 12 * (s.cursor.rest ls).length + 6 + s.waiting.length
  | .ended _ => 0

/-- What calls that wait make of a reading, with the counter of levels it was entered with. -/
def resume (stop : Nat) : List Activation → Nat → Expr × List Lexeme → Except SyntaxError (Expr × List Lexeme)
  | [], _, x => .ok x
  | a :: waiting, depth, x => a.todo.read stop depth x.1 x.2 >>= resume stop waiting a.entry.depth

/-- A reading has to leave nothing over. -/
def whole (stop : Nat) : Expr × List Lexeme → Except SyntaxError Expr
  | (e, []) => .ok e
  | (_, rest) => fail stop rest .trailingInput

/-- The outcome that a state comes to by the readers of the grammar. -/
def answer (stop : Nat) (ls : List Lexeme) (s : State) : Except SyntaxError Expr :=
  match s.control with
  | .entering r =>
    r.read stop s.cursor.depth (s.cursor.rest ls) >>= resume stop s.waiting s.cursor.depth >>= whole stop
  | .leaving _ entry e => resume stop s.waiting entry.depth (e, s.cursor.rest ls) >>= whole stop
  | .ended outcome => outcome

/-- A call of `r`, entered with a cursor while others waited, is under way. -/
inductive Inside (r : Routine) (entry : Cursor) (waiting : List Activation) : State → Prop
  | entered : Inside r entry waiting ⟨entry, .entering r, waiting⟩
  | waits {s todo} (inner : List Activation) (own : todo.routine = r)
      (among : s.waiting = inner ++ ⟨entry, todo⟩ :: waiting) : Inside r entry waiting s

/-- A call of `r`, entered with a cursor while others waited, has come to its end. -/
inductive Finished (ls : List Lexeme) (r : Routine) (entry : Cursor) (waiting : List Activation) : State → Prop
  | left {c e} (returned : Returned ls r entry c) : Finished ls r entry waiting ⟨c, .leaving r entry e, waiting⟩
  | failed {c err} : Finished ls r entry waiting ⟨c, .ended (.error err), []⟩

variable {s s' : State} {r r' : Routine} {entry entry' : Cursor} {waiting : List Activation} {weight : Nat}
  {outcome : Except SyntaxError (Expr × List Lexeme)} {x : Cursor × Move}

/-- A state after a move that fits is sound, has less weight, and comes to the outcome of the move. -/
theorem sound_follow (fits : Fits stop ls r entry weight outcome x) (room : entry.depth ≤ nestingLimit)
    (waits : Waits entry waiting) (positive : 0 < weight) :
    (follow r entry waiting x).Sound ls ∧
      (follow r entry waiting x).weight ls < weight + waiting.length ∧
      (follow r entry waiting x).answer stop ls = (outcome >>= resume stop waiting entry.depth >>= whole stop) := by
  cases fits with
  | @call c todo r' us inside rest own between room lighter same =>
    subst rest
    refine ⟨⟨inside, room, between, waits⟩, ?_, ?_⟩
    · show 12 * (c.rest ls).length + r'.weight + (waiting.length + 1) < weight + waiting.length
      omega
    · rw [same]
      exact congrArg (· >>= whole stop) (bind_assoc _ _ _).symm
  | give inside rest returned lighter same =>
    subst rest
    exact ⟨⟨inside, returned, room, waits⟩, Nat.add_lt_add_right lighter _, by rw [same]; rfl⟩
  | fail inside same =>
    exact ⟨⟨inside, rfl⟩, Nat.add_pos_left positive _, by rw [same]; rfl⟩

/-- The call that makes a move stays under way or comes to its end. -/
theorem inside_follow (fits : Fits stop ls r entry weight outcome x) :
    Inside r entry waiting (follow r entry waiting x) ∨
      Finished ls r entry waiting (follow r entry waiting x) := by
  cases fits with
  | call inside rest own => exact .inl (.waits [] own rfl)
  | give inside rest returned => exact .inr (.left returned)
  | fail => exact .inr .failed

/-- A call that waits for others stays under way unless one of them fails. -/
theorem inside_follow_inner {todo : Todo} (own : todo.routine = r) {inner among : List Activation}
    (h : among = inner ++ ⟨entry, todo⟩ :: waiting) :
    Inside r entry waiting (follow r' entry' among x) ∨
      Finished ls r entry waiting (follow r' entry' among x) := by
  obtain ⟨c, move⟩ := x
  cases move with
  | call todo' r'' => exact .inl (.waits (⟨entry', todo'⟩ :: inner) own (congrArg (List.cons _) h))
  | give e => exact .inl (.waits inner own h)
  | fail err => exact .inr .failed

/-- A step to a sound state, with less weight and the same outcome, and what it does to calls that are under way. -/
structure Advances (stop : Nat) (ls : List Lexeme) (s s' : State) : Prop where
  next : s.next stop ls = .ok (some s')
  sound : s'.Sound ls
  lighter : s'.weight ls < s.weight ls
  same : s'.answer stop ls = s.answer stop ls
  calls : ∀ {r entry waiting}, Inside r entry waiting s →
    Inside r entry waiting s' ∨ Finished ls r entry waiting s'

variable {c : Cursor} {e : Expr} {a : Activation}

theorem advances_entering (inside : c.index ≤ ls.length) (room : c.depth ≤ nestingLimit) (waits : Waits c waiting) :
    ∃ s', Advances stop ls ⟨c, .entering r, waiting⟩ s' := by
  obtain ⟨x, hx, fits⟩ := enter_fits stop r inside room
  obtain ⟨sound, lighter, same⟩ := sound_follow fits room waits (Nat.add_pos_right _ r.weight_pos)
  refine ⟨follow r c waiting x, ?_, sound, lighter, same, fun under => ?_⟩
  · show (enter stop ls c r).map _ = _
    rw [hx]
    rfl
  · cases under with
    | entered => exact inside_follow fits
    | waits inner own among => exact inside_follow_inner own among

theorem advances_leaving (inside : c.index ≤ ls.length) (returned : Returned ls r entry c)
    (room : entry.depth ≤ nestingLimit) (between : a.todo.Between a.entry entry) (waits : Waits a.entry waiting) :
    ∃ s', Advances stop ls ⟨c, .leaving r entry e, a :: waiting⟩ s' := by
  have deep : c.depth ≤ nestingLimit := returned.depth ▸ room
  obtain ⟨x, hx, fits⟩ := goOn_fits stop e a.todo inside between returned.progress returned.depth deep
  obtain ⟨sound, lighter, same⟩ := sound_follow fits (Nat.le_trans between.depth_le room) waits (Nat.succ_pos _)
  refine ⟨follow a.todo.routine a.entry waiting x, ?_, sound, ?_, ?_, fun under => ?_⟩
  · show (goOn stop ls a.entry c e a.todo).map _ = _
    rw [hx]
    rfl
  · show _ < 12 * (c.rest ls).length + 6 + (waiting.length + 1)
    omega
  · rw [same, returned.depth]
    rfl
  · cases under with
    | waits inner own among =>
      -- either this call gets the expression, or one inside it
      cases inner with
      | nil =>
        obtain ⟨rfl, rfl⟩ := List.cons.inj among
        exact own ▸ inside_follow fits
      | cons b inner => exact inside_follow_inner own (List.cons.inj among).2

theorem advances_whole (inside : c.index ≤ ls.length) :
    ∃ s', Advances stop ls ⟨c, .leaving r entry e, []⟩ s' := by
  have outside {r' entry' waiting s'} (under : Inside r' entry' waiting ⟨c, .leaving r entry e, []⟩) :
      Inside r' entry' waiting s' ∨ Finished ls r' entry' waiting s' := by
    cases under with
    | waits inner own among => exact absurd among.symm (List.append_ne_nil_of_right_ne_nil _ (List.cons_ne_nil _ _))
  have looked : (State.mk c (.leaving r entry e) []).next stop ls = _ :=
    congrArg (Except.map _) (@peek_eq stop ls c inside)
  rcases h : c.rest ls with _ | ⟨⟨token, p⟩, us⟩
  · rw [h] at looked
    exact ⟨_, looked, ⟨inside, rfl⟩, Nat.succ_pos _, by rw [answer, answer, h]; rfl, outside⟩
  · rw [h] at looked
    exact ⟨_, looked, ⟨inside, rfl⟩, Nat.succ_pos _, by rw [answer, answer, h]; rfl, outside⟩

/-- A sound state has a next one unless reading has ended. -/
theorem Sound.advances (stop : Nat) (h : s.Sound ls) :
    (∃ outcome, s.control = .ended outcome) ∨ ∃ s', Advances stop ls s s' := by
  obtain ⟨c, control, waiting⟩ := s
  obtain ⟨inside, reached⟩ := h
  cases control with
  | ended outcome => exact .inl ⟨outcome, rfl⟩
  | entering r => exact .inr (advances_entering inside reached.1 reached.2)
  | leaving r entry e =>
    obtain ⟨returned, room, waits⟩ := reached
    cases waiting with
    | nil => exact .inr (advances_whole inside)
    | cons a waiting => exact .inr (advances_leaving inside returned room waits.1 waits.2)

/-! ## Runs -/

theorem ended_of_weight_eq_zero (h : s.weight ls = 0) : ∃ outcome, s.control = .ended outcome := by
  obtain ⟨c, control, waiting⟩ := s
  cases control with
  | ended outcome => exact ⟨outcome, rfl⟩
  | entering r =>
    have h : 12 * (c.rest ls).length + r.weight + waiting.length = 0 := h
    have := r.weight_pos
    omega
  | leaving r entry e =>
    have h : 12 * (c.rest ls).length + 6 + waiting.length = 0 := h
    omega

theorem run_succ (h : s.next stop ls = .ok (some s')) (n : Nat) : s.run stop ls (n + 1) = s'.run stop ls n := by
  rw [run, h]
  rfl

/-- Any number of steps can be made from a sound state, until there is no weight left. -/
theorem Sound.run (stop : Nat) (h : s.Sound ls) (n : Nat) : ∃ s', s.run stop ls n = .ok s' ∧ s'.Sound ls ∧
    s'.weight ls ≤ s.weight ls - n ∧ s'.answer stop ls = s.answer stop ls := by
  induction n generalizing s with
  | zero => exact ⟨s, rfl, h, Nat.le_refl _, rfl⟩
  | succ n ih =>
    rcases h.advances stop with ⟨outcome, ended⟩ | ⟨s₁, step⟩
    · have last : s.next stop ls = .ok none := by rw [next, ended]
      have weightless : s.weight ls = 0 := by rw [State.weight, ended]
      exact ⟨s, by rw [State.run, last]; rfl, h, by omega, rfl⟩
    · obtain ⟨s', run, sound, lighter, same⟩ := ih step.sound
      have := step.lighter
      exact ⟨s', by rw [run_succ step.next, run], sound, by omega, same.trans step.same⟩

/-- A call that is under way comes to its end. -/
theorem Inside.finishes (under : Inside r entry waiting s) (h : s.Sound ls) :
    ∃ n s', s.run stop ls n = .ok s' ∧ s'.Sound ls ∧ Finished ls r entry waiting s' := by
  induction weight : s.weight ls using Nat.strongRecOn generalizing s with
  | _ weight ih =>
    rcases h.advances stop with ⟨outcome, ended⟩ | ⟨s₁, step⟩
    · -- no call is under way when reading has ended
      exfalso
      cases under with
      | entered => cases ended
      | waits inner own among =>
        have none_waits := h.control
        rw [ended] at none_waits
        exact List.append_ne_nil_of_right_ne_nil _ (List.cons_ne_nil _ _) (among.symm.trans none_waits)
    · rcases step.calls under with under | finished
      · obtain ⟨n, s', run, sound, finished⟩ := ih _ (weight ▸ step.lighter) under step.sound rfl
        exact ⟨n + 1, s', (run_succ step.next n).trans run, sound, finished⟩
      · exact ⟨1, s₁, run_succ step.next 0, step.sound, finished⟩

/-! ## Nesting -/

/-- Whether a call that waits is one of a signed operand. -/
def isSigned (a : Activation) : Bool :=
  match a.todo.routine with
  | .signed => true
  | _ => false

/-- Every signed operand that waits has raised the counter. -/
theorem countP_isSigned_le : ∀ {waiting : List Activation} {callee : Cursor}, Waits callee waiting →
    waiting.countP isSigned ≤ callee.depth
  | [], _, _ => Nat.zero_le _
  | ⟨entry, todo⟩ :: waiting, callee, ⟨between, waits⟩ => by
    have outer := countP_isSigned_le waits
    cases todo with
    | negated | plain =>
      have deeper : callee.depth = entry.depth + 1 := between.2
      rw [List.countP_cons_of_pos rfl, deeper]
      exact Nat.succ_le_succ outer
    | operand kind before | base | exponent below | grouped | called | listed name before =>
      rw [List.countP_cons_of_neg Bool.false_ne_true]
      exact Nat.le_trans outer between.depth_le

theorem Sound.countP_le (h : s.Sound ls) : s.waiting.countP isSigned ≤ nestingLimit := by
  obtain ⟨c, control, waiting⟩ := s
  obtain ⟨inside, reached⟩ := h
  cases control with
  | entering r => exact Nat.le_trans (countP_isSigned_le reached.2) reached.1
  | leaving r entry e => exact Nat.le_trans (countP_isSigned_le reached.2.2) reached.2.1
  | ended outcome =>
    obtain rfl : waiting = [] := reached
    exact Nat.zero_le _

/-- Inside as many signed operands as there may be, no other one is begun. -/
theorem Sound.refuses (h : s.Sound ls) (entering : s.control = .entering .signed)
    (full : s.waiting.countP isSigned = nestingLimit) :
    s.next stop ls = .ok (some ⟨s.cursor.deeper,
      .ended (.error ⟨place stop (s.cursor.rest ls), .nestedTooDeeply⟩), []⟩) := by
  have reached := h.control
  rw [entering] at reached
  have deep := countP_isSigned_le reached.2
  rw [next, entering]
  dsimp only
  have tooDeep : nestingLimit < s.cursor.deeper.depth := full ▸ Nat.lt_succ_of_le deep
  rw [enter, descend, if_pos tooDeep, peek_eq (c := s.cursor.deeper) h.inside]
  rfl

theorem sound_start : start.Sound ls where
  inside := Nat.zero_le _
  control := ⟨Nat.zero_le _, trivial⟩

theorem answer_start : start.answer stop ls = Expr.ofLexemes stop ls := by
  have read : start.answer stop ls =
      expression stop (levels stop nestingLimit) ls >>= Except.ok >>= whole stop := rfl
  rw [read, show (Except.ok : Expr × List Lexeme → Except SyntaxError _) = pure from rfl, bind_pure,
    Expr.ofLexemes]
  congr 1
  funext x
  obtain ⟨e, rest⟩ := x
  cases rest <;> rfl

/-- Reading with a cursor, after any number of steps. There has been no fault, and the cursor is at a slot. After
twelve steps for each lexeme and nine more, reading has ended, with the outcome of the readers of the grammar. A call
that is entered comes to its end : it is left with the calls that waited for it still waiting, or reading fails. A call
that is left has taken a lexeme and put the counter back. No more than `nestingLimit` calls of signed operands are
waiting, and inside as many of them another one fails before it does anything. -/
theorem run_start (stop : Nat) (ls : List Lexeme) (n : Nat) : ∃ s, start.run stop ls n = .ok s ∧
    s.cursor.index < (slots stop ls).length ∧
    (12 * ls.length + 9 ≤ n → s.control = .ended (Expr.ofLexemes stop ls)) ∧
    (∀ r, s.control = .entering r →
      ∃ m s', s.run stop ls m = .ok s' ∧ Finished ls r s.cursor s.waiting s') ∧
    (∀ r entry e, s.control = .leaving r entry e → Returned ls r entry s.cursor) ∧
    s.waiting.countP isSigned ≤ nestingLimit ∧
    (s.control = .entering .signed → s.waiting.countP isSigned = nestingLimit → ∃ p, s.next stop ls =
      .ok (some ⟨s.cursor.deeper, .ended (.error ⟨p, .nestedTooDeeply⟩), []⟩)) := by
  obtain ⟨s, run, sound, lighter, same⟩ := (@sound_start ls).run stop n
  refine ⟨s, run, ?_, fun enough => ?_, fun r entering => ?_, fun r entry e leaving => ?_, sound.countP_le,
    fun entering full => ⟨_, sound.refuses entering full⟩⟩
  · rw [slots, List.length_append, List.length_map]
    exact Nat.lt_succ_of_le sound.inside
  · have weightless : s.weight ls = 0 := by
      have first : start.weight ls = 12 * ls.length + 9 := rfl
      omega
    obtain ⟨outcome, ended⟩ := ended_of_weight_eq_zero weightless
    rw [answer_start, answer, ended] at same
    rw [ended, ← same]
  · obtain ⟨c, control, waiting⟩ := s
    obtain rfl : control = .entering r := entering
    obtain ⟨m, s', run, -, finished⟩ := Inside.entered.finishes sound
    exact ⟨m, s', run, finished⟩
  · have reached := sound.control
    rw [leaving] at reached
    exact reached.1

end State

end Argand.Pushdown
