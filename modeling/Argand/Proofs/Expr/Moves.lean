import Argand.Proofs.Expr.Prediction
import Argand.Proofs.Expr.Pushdown

/-!
# Moves of a reader with a cursor

Between two calls a routine makes a `Move`. It looks at a slot or two, so there is one case for each of the tokens
that it tells apart. `Fits` says what all moves have in common, as long as the cursor is inside the text and the
counter within the limit :

* there is no fault, and the cursor stays inside;
* a routine that gives an expression has taken a lexeme and put the counter back (`Returned`), and one that calls
  another one leaves the cursor and the counter so that this will be true (`Todo.Between`);
* the weight gets less : twelve for each lexeme that is left, and a routine weighs more than what it calls without
  taking a lexeme first;
* what there is to read still comes to the same outcome. The readers of the grammar say what that is
  (`Routine.read`, `Todo.read`), with as many levels as the counter leaves.

So it is shown for every routine that is begun (`enter_fits`) and for all that a routine may have to do with an
expression it gets (`goOn_fits`).
-/

namespace Argand.Pushdown

open Grammar

variable {stop : Nat} {ls us : List Lexeme} {l : Lexeme} {c : Cursor}

/-! ## Slots -/

/-- The lexemes that a cursor has not gone along. -/
def Cursor.rest (ls : List Lexeme) (c : Cursor) : List Lexeme :=
  ls.drop c.index

theorem rest_behind (h : c.rest ls = l :: us) : c.behind.rest ls = us := by
  rw [Cursor.rest, Cursor.behind, ← List.drop_drop, show ls.drop c.index = l :: us from h]
  rfl

theorem token_of_rest (h : c.rest ls = l :: us) : ls[c.index]?.map Lexeme.token = some l.token := by
  rw [← List.head?_drop, show ls.drop c.index = l :: us from h, List.head?_cons, Option.map_some]

theorem index_lt (h : c.rest ls = l :: us) : c.index < ls.length := by
  refine Nat.lt_of_not_le fun outside => ?_
  rw [Cursor.rest, List.drop_eq_nil_of_le outside] at h
  cases h

theorem peek_eq (inside : c.index ≤ ls.length) :
    peek stop ls c = .ok ((c.rest ls).head?.map Lexeme.token, place stop (c.rest ls)) := by
  rw [peek, slots, Cursor.rest, place, List.head?_drop]
  rcases Nat.lt_or_eq_of_le inside with more | last
  · rw [List.getElem?_append_left (by simpa using more), List.getElem?_map, List.getElem?_eq_getElem more]
    rfl
  · rw [List.getElem?_append_right (by simp [last])]
    simp [last]

theorem bump_end (inside : c.index ≤ ls.length) (h : c.rest ls = []) :
    bump stop ls c = .ok ((none, stop), c) := by
  rw [bump, peek_eq inside, h]
  rfl

theorem bump_lexeme (h : c.rest ls = l :: us) :
    bump stop ls c = .ok ((some l.token, l.position), c.behind) := by
  rw [bump, peek_eq (Nat.le_of_lt (index_lt h)), h]
  rfl

/-! ## What is left to read -/

/-- The readers that the operands of a chain spend, with some levels left. -/
def Chain.stack (stop : Nat) : Chain → Nat → List (Reader Expr)
  | sum, n => terms stop (levels stop n)
  | product, n => levels stop n

/-- What finds the operation that goes on a chain. -/
def Chain.operation? : Chain → List Lexeme → Option (String × List Lexeme)
  | sum => termOperation?
  | product => operandOperation?

/-- What a routine reads that is entered with a counter of levels. -/
def Routine.read (stop : Nat) (r : Routine) (depth : Nat) : Reader Expr :=
  let below := levels stop (nestingLimit - depth)
  match r with
  | .chain kind => Grammar.chain stop kind.operation? (kind.stack stop (nestingLimit - depth))
  | .signed => top stop below
  | .power => Grammar.power stop below
  | .primary => Grammar.primary stop below
  | .operands name => fun ts =>
    Grammar.operands stop (expression stop below) ts >>= fun x => .ok (.call name x.1, x.2)

/-- What a routine reads that gets an expression, with a counter of levels. -/
def Todo.read (stop : Nat) (todo : Todo) (depth : Nat) (e : Expr) : Reader Expr :=
  let below := levels stop (nestingLimit - depth)
  match todo with
  | .operand kind before =>
    chainFrom stop kind.operation? (kind.stack stop (nestingLimit - (depth + 1))) (joined before e)
  | .negated => fun ts => .ok (.call "negate" [e], ts)
  | .plain | .called => fun ts => .ok (e, ts)
  | .base => powerAfter (top stop below) e
  | .exponent below => fun ts => .ok (.call "pow" [below, e], ts)
  | .grouped => groupAfter stop e
  | .listed name before => fun ts =>
    operandsAfter stop (separated stop (expression stop below)) e ts >>= fun x =>
      .ok (.call name (before ++ x.1), x.2)

/-- How much a routine may do before it takes a lexeme. One that is left weighs six, a call that waits one. -/
def Routine.weight : Routine → Nat
  | .chain .sum => 9
  | .chain .product => 7
  | .signed => 5
  | .power => 3
  | .primary => 1
  | .operands _ => 11

/-! ## Moves -/

/-- How the cursors lie that a routine and the one it waits for were entered with. -/
def Todo.Between (todo : Todo) (entry callee : Cursor) : Prop :=
  entry.index ≤ callee.index ∧
    match todo with
    | .operand _ _ => entry.depth ≤ callee.depth
    | .negated | .plain => callee.depth = entry.depth + 1
    | _ => callee.depth = entry.depth

theorem Todo.Between.depth_le {todo : Todo} {entry callee : Cursor} (h : todo.Between entry callee) :
    entry.depth ≤ callee.depth := by
  obtain ⟨-, h⟩ := h
  cases todo with
  | operand kind before => exact h
  | negated | plain => exact h ▸ Nat.le_succ _
  | base | exponent below | grouped | called | listed name before => exact Nat.le_of_eq h.symm

/-- A call of a routine, entered with a cursor, is left with another one. -/
structure Returned (ls : List Lexeme) (r : Routine) (entry c : Cursor) : Prop where
  progress : entry.index < c.index
  depth : c.depth = entry.depth
  /-- Operands end with their closing parenthesis. -/
  closed : ∀ name, r = .operands name → ls[c.index - 1]?.map Lexeme.token = some .closing

/-- A move fits a call of `r`, entered at a cursor, that has to come to an outcome, with the weight it has left. -/
inductive Fits (stop : Nat) (ls : List Lexeme) (r : Routine) (entry : Cursor) (weight : Nat)
    (outcome : Except SyntaxError (Expr × List Lexeme)) : Cursor × Move → Prop
  | call {c todo r' us} (inside : c.index ≤ ls.length) (rest : c.rest ls = us) (own : todo.routine = r)
      (between : todo.Between entry c) (room : c.depth ≤ nestingLimit)
      (lighter : 12 * us.length + r'.weight + 1 < weight)
      (same : outcome = r'.read stop c.depth us >>= fun x => todo.read stop c.depth x.1 x.2) :
      Fits stop ls r entry weight outcome (c, .call todo r')
  | give {c e us} (inside : c.index ≤ ls.length) (rest : c.rest ls = us) (returned : Returned ls r entry c)
      (lighter : 12 * us.length + 6 < weight) (same : outcome = .ok (e, us)) :
      Fits stop ls r entry weight outcome (c, .give e)
  | fail {c err} (inside : c.index ≤ ls.length) (same : outcome = .error err) :
      Fits stop ls r entry weight outcome (c, .fail err)

theorem Routine.weight_le (r : Routine) : r.weight ≤ 11 := by
  cases r with
  | chain kind => cases kind <;> simp [weight]
  | _ => simp [weight]

/-- With a lexeme taken, there is room for any call. -/
theorem Routine.lighter (r : Routine) {n weight : Nat} (h : 0 < weight) :
    12 * n + r.weight + 1 < 12 * (n + 1) + weight := by
  have := r.weight_le
  omega

theorem Routine.weight_pos (r : Routine) : 0 < r.weight := by
  cases r with
  | chain kind => cases kind <;> simp [weight]
  | _ => simp [weight]

/-! ## Beginning -/

section Beginning

variable {weight : Nat} {outcome : Except SyntaxError (Expr × List Lexeme)} {r : Routine} {entry : Cursor}

theorem top_stack (kind : Chain) (depth : Nat) :
    top stop (kind.stack stop (nestingLimit - depth)) = kind.inner.read stop depth := by
  cases kind with
  | sum => exact top_terms _
  | product => rfl

theorem tail_stack (kind : Chain) (depth : Nat) :
    (kind.stack stop (nestingLimit - depth)).tail = kind.stack stop (nestingLimit - (depth + 1)) := by
  rw [← List.drop_one]
  cases kind with
  | sum => rw [Chain.stack, drop_terms, drop_levels]; rfl
  | product => exact drop_levels _ 1

theorem bind_eta {α β : Type} (x : Except SyntaxError (α × β)) : x = x >>= fun y => .ok (y.1, y.2) :=
  (bind_pure x).symm

theorem enter_chain (kind : Chain) (inside : c.index ≤ ls.length) (room : c.depth ≤ nestingLimit) :
    ∃ x, enter stop ls c (.chain kind) = .ok x ∧ Fits stop ls (.chain kind) c
      (12 * (c.rest ls).length + (Routine.chain kind).weight)
      ((Routine.chain kind).read stop c.depth (c.rest ls)) x := by
  refine ⟨_, rfl, .call inside rfl rfl ⟨Nat.le_refl _, Nat.le_refl _⟩ room ?_ ?_⟩
  · cases kind <;> simp only [Chain.inner, Routine.weight] <;> omega
  · rw [← top_stack, Routine.read, Grammar.chain, tail_stack]
    rfl

theorem descend_fits {inner : Cursor → Except Fault (Cursor × Move)} (inside : c.index ≤ ls.length)
    (deep : nestingLimit ≤ c.depth → outcome = fail stop (c.rest ls) .nestedTooDeeply)
    (fits : c.deeper.depth ≤ nestingLimit →
      ∃ x, inner c.deeper = .ok x ∧ Fits stop ls r entry weight outcome x) :
    ∃ x, descend stop ls c inner = .ok x ∧ Fits stop ls r entry weight outcome x := by
  rw [descend]
  split
  · rename_i tooDeep
    rw [peek_eq (c := c.deeper) inside]
    exact ⟨_, rfl, .fail inside ((deep (Nat.le_of_lt_succ tooDeep)).trans fail_eq)⟩
  · rename_i shallow
    exact fits (Nat.le_of_not_lt shallow)

theorem enter_signed (inside : c.index ≤ ls.length) :
    ∃ x, enter stop ls c .signed = .ok x ∧ Fits stop ls .signed c
      (12 * (c.rest ls).length + Routine.signed.weight) (Routine.signed.read stop c.depth (c.rest ls)) x := by
  rw [enter]
  refine descend_fits inside (fun deep => ?_) fun room => ?_
  · rw [Routine.read, Nat.sub_eq_zero_of_le deep]
    rfl
  · rw [Routine.read, top_levels room]
    rcases h : c.deeper.rest ls with _ | ⟨⟨token, p⟩, us⟩
    · rw [bump_end (c := c.deeper) inside h, show c.rest ls = [] from h]
      exact ⟨_, rfl, .call inside h rfl ⟨Nat.le_refl _, rfl⟩ room (Nat.lt_succ_self _) (bind_eta _)⟩
    · rw [bump_lexeme h, show c.rest ls = _ from h]
      cases token
      case minus => exact ⟨_, rfl, .call (index_lt h) (rest_behind h) rfl ⟨Nat.le_succ _, rfl⟩ room
          (Routine.signed.lighter (by decide)) rfl⟩
      case plus => exact ⟨_, rfl, .call (index_lt h) (rest_behind h) rfl ⟨Nat.le_succ _, rfl⟩ room
          (Routine.signed.lighter (by decide)) (bind_eta _)⟩
      all_goals exact ⟨_, rfl, .call inside h rfl ⟨Nat.le_refl _, rfl⟩ room (Nat.lt_succ_self _) (bind_eta _)⟩

theorem enter_power (inside : c.index ≤ ls.length) (room : c.depth ≤ nestingLimit) :
    ∃ x, enter stop ls c .power = .ok x ∧ Fits stop ls .power c
      (12 * (c.rest ls).length + Routine.power.weight) (Routine.power.read stop c.depth (c.rest ls)) x :=
  ⟨_, rfl, .call inside rfl rfl ⟨Nat.le_refl _, rfl⟩ room (Nat.lt_succ_self _) rfl⟩

/-- With a lexeme taken, an expression may be given. -/
theorem lighter_give {n : Nat} : 12 * n + 6 < 12 * (n + 1) + weight := by
  omega

theorem named_fits {text : String} {p : Nat} (h : c.rest ls = ⟨.name text, p⟩ :: us)
    (room : c.depth ≤ nestingLimit) : ∃ x, named stop ls c.behind text = .ok x ∧
      Fits stop ls .primary c (12 * (us.length + 1) + Routine.primary.weight)
        (Routine.primary.read stop c.depth (⟨.name text, p⟩ :: us)) x := by
  have rest := rest_behind h
  have symbol (alone : (tokens us).head? ≠ some .opening) :
      Fits stop ls .primary c (12 * (us.length + 1) + Routine.primary.weight)
        (Routine.primary.read stop c.depth (⟨.name text, p⟩ :: us)) (c.behind, .give (.symbol text)) :=
    .give (index_lt h) rest ⟨Nat.lt_succ_self _, rfl, nofun⟩ lighter_give (primary_name alone)
  rw [named]
  rcases us with _ | ⟨⟨token, q⟩, us⟩
  · rw [bump_end (c := c.behind) (index_lt h) rest]
    exact ⟨_, rfl, symbol nofun⟩
  · rw [bump_lexeme rest]
    cases token
    case opening =>
      refine ⟨_, rfl, .call (index_lt rest) (rest_behind rest) rfl ⟨Nat.le_add_right _ 2, rfl⟩ room ?_ ?_⟩
      · exact Nat.lt_add_right 12 (Routine.lighter _ (show 0 < Routine.primary.weight by decide))
      · exact bind_eta _
    all_goals exact ⟨_, rfl, symbol nofun⟩

theorem enter_primary (inside : c.index ≤ ls.length) (room : c.depth ≤ nestingLimit) :
    ∃ x, enter stop ls c .primary = .ok x ∧ Fits stop ls .primary c
      (12 * (c.rest ls).length + Routine.primary.weight) (Routine.primary.read stop c.depth (c.rest ls)) x := by
  rw [enter]
  rcases h : c.rest ls with _ | ⟨⟨token, p⟩, us⟩
  · rw [bump_end inside h]
    exact ⟨_, rfl, .fail inside rfl⟩
  · rw [bump_lexeme h]
    have rest := rest_behind h
    cases token
    case number value =>
      exact ⟨_, rfl, .give (index_lt h) rest ⟨Nat.lt_succ_self _, rfl, nofun⟩ lighter_give rfl⟩
    case name text => exact named_fits h room
    case opening =>
      exact ⟨_, rfl, .call (index_lt h) rest rfl ⟨Nat.le_succ _, rfl⟩ room
        (Routine.lighter _ (by decide)) rfl⟩
    all_goals exact ⟨_, rfl, .fail (index_lt h) rfl⟩

theorem operands_eq {read : Reader Expr} (h : (tokens ls).head? ≠ some .closing) :
    operands stop read ls = separated stop read ls := by
  rcases ls with _ | ⟨⟨token, p⟩, us⟩
  · rfl
  · cases token
    case closing => exact absurd rfl h
    all_goals rfl

/-- Operands that go on with one more. -/
theorem read_listed (name : String) (before : List Expr) (depth : Nat) (us : List Lexeme) :
    (separated stop (expression stop (levels stop (nestingLimit - depth))) us >>= fun x =>
        (.ok (.call name (before ++ x.1), x.2) : Except SyntaxError (Expr × List Lexeme))) =
      (Routine.chain .sum).read stop depth us >>= fun x => (Todo.listed name before).read stop depth x.1 x.2 := by
  rw [separated_eq (progresses_expression _), bind_assoc]
  rfl

theorem enter_operands (name : String) (inside : c.index ≤ ls.length) (room : c.depth ≤ nestingLimit) :
    ∃ x, enter stop ls c (.operands name) = .ok x ∧ Fits stop ls (.operands name) c
      (12 * (c.rest ls).length + (Routine.operands name).weight)
      ((Routine.operands name).read stop c.depth (c.rest ls)) x := by
  have operand {us : List Lexeme} (h : c.rest ls = us) (more : (tokens us).head? ≠ some .closing) :
      Fits stop ls (.operands name) c (12 * us.length + (Routine.operands name).weight)
        ((Routine.operands name).read stop c.depth us) (c, .call (.listed name []) (.chain .sum)) := by
    refine .call inside h rfl ⟨Nat.le_refl _, rfl⟩ room (Nat.lt_succ_self _) ?_
    rw [← read_listed, ← operands_eq more]
    rfl
  rw [enter]
  rcases h : c.rest ls with _ | ⟨⟨token, p⟩, us⟩
  · rw [bump_end inside h]
    exact ⟨_, rfl, operand h nofun⟩
  · rw [bump_lexeme h]
    cases token
    case closing =>
      exact ⟨_, rfl, .give (index_lt h) (rest_behind h)
        ⟨Nat.lt_succ_self _, rfl, fun _ _ => token_of_rest h⟩ lighter_give rfl⟩
    all_goals exact ⟨_, rfl, operand h nofun⟩

theorem enter_fits (stop : Nat) (r : Routine) (inside : c.index ≤ ls.length) (room : c.depth ≤ nestingLimit) :
    ∃ x, enter stop ls c r = .ok x ∧
      Fits stop ls r c (12 * (c.rest ls).length + r.weight) (r.read stop c.depth (c.rest ls)) x := by
  cases r with
  | chain kind => exact enter_chain kind inside room
  | signed => exact enter_signed inside
  | power => exact enter_power inside room
  | primary => exact enter_primary inside room
  | operands name => exact enter_operands name inside room

end Beginning

/-! ## Going on -/

section GoingOn

variable {entry callee : Cursor} {e : Expr}

theorem operation?_cons (kind : Chain) (l : Lexeme) (us : List Lexeme) :
    kind.operation? (l :: us) =
      (kind.sign? (some l.token)).map fun x => (x.1, if x.2 then us else l :: us) := by
  obtain ⟨token, p⟩ := l
  cases kind <;> cases token <;> rfl

theorem own_sign {kind : Chain} {token : Option Token} {op : String}
    (h : kind.sign? token = some (op, false)) : kind = .product := by
  cases kind with
  | product => rfl
  | sum =>
    rcases token with _ | token
    · cases h
    · cases token <;> cases h

theorem fail_bind {α β : Type} {cause : SyntaxCause} (f : α → Except SyntaxError β) :
    fail stop ls cause >>= f = fail stop ls cause := by
  rw [fail_eq, fail_eq]
  rfl

/-- A chain that goes on with an operation, from a cursor in front of the next operand. -/
theorem descend_operand {kind : Chain} {before : Option (String × Expr)} {op : String} {weight : Nat}
    (inside : c.index ≤ ls.length) (later : entry.index ≤ c.index) (deeper : entry.depth ≤ c.depth)
    (sign : kind.operation? us = some (op, c.rest ls))
    (lighter : 12 * (c.rest ls).length + kind.inner.weight + 1 < weight) :
    ∃ x, (descend stop ls c fun c =>
        .ok (c, .call (.operand kind (some (op, joined before e))) kind.inner)) = .ok x ∧
      Fits stop ls (.chain kind) entry weight ((Todo.operand kind before).read stop c.depth e us) x := by
  rw [Todo.read, chainFrom_next sign]
  refine descend_fits inside (fun deep => ?_) fun room => ?_
  · have none_left : nestingLimit - (c.depth + 1) = 0 := by omega
    have empty : kind.stack stop 0 = [] := by cases kind <;> rfl
    rw [none_left, empty]
    exact fail_bind _
  · refine ⟨_, rfl, .call inside rfl rfl ⟨later, Nat.le_succ_of_le deeper⟩ room lighter ?_⟩
    rw [top_stack, tail_stack]
    rfl

theorem goOn_operand (kind : Chain) (before : Option (String × Expr)) (inside : c.index ≤ ls.length)
    (later : entry.index < c.index) (deeper : entry.depth ≤ c.depth) :
    ∃ x, goOn stop ls entry c e (.operand kind before) = .ok x ∧ Fits stop ls (.chain kind) entry
      (12 * (c.rest ls).length + 7) ((Todo.operand kind before).read stop c.depth e (c.rest ls)) x := by
  have done {us : List Lexeme} (h : c.rest ls = us) (last : kind.operation? us = none) :
      Fits stop ls (.chain kind) entry (12 * us.length + 7)
        ((Todo.operand kind before).read stop c.depth e us)
        ({ c with depth := entry.depth }, .give (joined before e)) :=
    .give inside h ⟨later, rfl, nofun⟩ (Nat.lt_succ_self _) (chainFrom_end last)
  rw [goOn]
  rcases h : c.rest ls with _ | ⟨l, us⟩
  · have last : kind.operation? [] = none := by cases kind <;> rfl
    have no_sign : kind.sign? none = none := by cases kind <;> rfl
    rw [bump_end inside h, ok_bind]
    dsimp only
    rw [no_sign]
    exact ⟨_, rfl, done h last⟩
  · rw [bump_lexeme h, ok_bind]
    dsimp only
    cases hsign : kind.sign? (some l.token) with
    | none =>
      exact ⟨_, rfl, done h (by rw [operation?_cons, hsign]; rfl)⟩
    | some sign =>
      obtain ⟨op, own⟩ := sign
      -- a sign of its own is taken, otherwise the lexeme begins the next operand
      cases own with
      | true =>
        have rest := rest_behind h
        have sign : kind.operation? (l :: us) = some (op, c.behind.rest ls) := by
          rw [operation?_cons, hsign, rest]
          rfl
        refine descend_operand (c := c.behind) (index_lt h) (Nat.le_succ_of_le (Nat.le_of_lt later)) deeper sign ?_
        rw [rest]
        exact Routine.lighter _ (by decide)
      | false =>
        obtain rfl := own_sign hsign
        have sign : Chain.product.operation? (c.rest ls) = some (op, c.rest ls) := by
          rw [h, operation?_cons, hsign]
          rfl
        rw [← h]
        exact descend_operand inside (Nat.le_of_lt later) deeper sign (Nat.lt_succ_self _)

theorem ascend_fits {outcome : Except SyntaxError (Expr × List Lexeme)} (inside : c.index ≤ ls.length)
    (later : entry.index < c.index) (depth : c.depth = entry.depth + 1) (same : outcome = .ok (e, c.rest ls)) :
    ∃ x, ascend c e = .ok x ∧ Fits stop ls .signed entry (12 * (c.rest ls).length + 7) outcome x := by
  rw [ascend, depth]
  exact ⟨_, rfl, .give inside rfl ⟨later, rfl, nofun⟩ (Nat.lt_succ_self _) same⟩

theorem goOn_base (inside : c.index ≤ ls.length) (later : entry.index < c.index) (depth : c.depth = entry.depth)
    (room : c.depth ≤ nestingLimit) :
    ∃ x, goOn stop ls entry c e .base = .ok x ∧ Fits stop ls .power entry (12 * (c.rest ls).length + 7)
      (Todo.base.read stop c.depth e (c.rest ls)) x := by
  have give {us : List Lexeme} (h : c.rest ls = us) (alone : (tokens us).head? ≠ some .power) :
      Fits stop ls .power entry (12 * us.length + 7) (Todo.base.read stop c.depth e us) (c, .give e) := by
    refine .give inside h ⟨later, depth, nofun⟩ (Nat.lt_succ_self _) ?_
    rcases us with _ | ⟨⟨token, p⟩, us⟩
    · rfl
    · cases token
      case power => exact absurd rfl alone
      all_goals rfl
  rw [goOn]
  rcases h : c.rest ls with _ | ⟨⟨token, p⟩, us⟩
  · rw [bump_end inside h]
    exact ⟨_, rfl, give h nofun⟩
  · rw [bump_lexeme h]
    cases token
    case power =>
      exact ⟨_, rfl, .call (index_lt h) (rest_behind h) rfl ⟨Nat.le_succ_of_le (Nat.le_of_lt later), depth⟩ room
        (Routine.lighter _ (by decide)) rfl⟩
    all_goals exact ⟨_, rfl, give h nofun⟩

theorem goOn_grouped (inside : c.index ≤ ls.length) (later : entry.index < c.index) (depth : c.depth = entry.depth) :
    ∃ x, goOn stop ls entry c e .grouped = .ok x ∧ Fits stop ls .primary entry (12 * (c.rest ls).length + 7)
      (Todo.grouped.read stop c.depth e (c.rest ls)) x := by
  rw [goOn]
  rcases h : c.rest ls with _ | ⟨⟨token, p⟩, us⟩
  · rw [bump_end inside h]
    exact ⟨_, rfl, .fail inside rfl⟩
  · rw [bump_lexeme h]
    cases token
    case closing =>
      exact ⟨_, rfl, .give (index_lt h) (rest_behind h) ⟨Nat.lt_succ_of_lt later, depth, nofun⟩ lighter_give rfl⟩
    all_goals exact ⟨_, rfl, .fail (index_lt h) rfl⟩

theorem goOn_listed (name : String) (before : List Expr) (inside : c.index ≤ ls.length)
    (later : entry.index < c.index) (depth : c.depth = entry.depth) (room : c.depth ≤ nestingLimit) :
    ∃ x, goOn stop ls entry c e (.listed name before) = .ok x ∧ Fits stop ls (.operands name) entry
      (12 * (c.rest ls).length + 7) ((Todo.listed name before).read stop c.depth e (c.rest ls)) x := by
  rw [goOn]
  rcases h : c.rest ls with _ | ⟨⟨token, p⟩, us⟩
  · rw [bump_end inside h]
    exact ⟨_, rfl, .fail inside rfl⟩
  · rw [bump_lexeme h]
    cases token
    case comma =>
      refine ⟨_, rfl, .call (index_lt h) (rest_behind h) rfl ⟨Nat.le_succ_of_le (Nat.le_of_lt later), depth⟩ room
        (Routine.lighter _ (by decide)) ?_⟩
      have others := @read_listed stop name (before ++ [e]) c.depth us
      simp only [List.append_assoc, List.singleton_append] at others
      exact (bind_assoc _ _ _).trans others
    case closing =>
      exact ⟨_, rfl, .give (index_lt h) (rest_behind h)
        ⟨Nat.lt_succ_of_lt later, depth, fun _ _ => token_of_rest h⟩ lighter_give rfl⟩
    all_goals exact ⟨_, rfl, .fail (index_lt h) rfl⟩

theorem goOn_fits (stop : Nat) (e : Expr) (todo : Todo) (inside : c.index ≤ ls.length)
    (between : todo.Between entry callee) (progress : callee.index < c.index) (depth : c.depth = callee.depth)
    (room : c.depth ≤ nestingLimit) : ∃ x, goOn stop ls entry c e todo = .ok x ∧ Fits stop ls todo.routine entry
      (12 * (c.rest ls).length + 7) (todo.read stop c.depth e (c.rest ls)) x := by
  obtain ⟨index, levels⟩ := between
  have later : entry.index < c.index := Nat.lt_of_le_of_lt index progress
  rw [← depth] at levels
  cases todo with
  | operand kind before => exact goOn_operand kind before inside later levels
  | negated => exact ascend_fits inside later levels rfl
  | plain => exact ascend_fits inside later levels rfl
  | base => exact goOn_base inside later levels room
  | exponent below => exact ⟨_, rfl, .give inside rfl ⟨later, levels, nofun⟩ (Nat.lt_succ_self _) rfl⟩
  | grouped => exact goOn_grouped inside later levels
  | called => exact ⟨_, rfl, .give inside rfl ⟨later, levels, nofun⟩ (Nat.lt_succ_self _) rfl⟩
  | listed name before => exact goOn_listed name before inside later levels room

end GoingOn

end Argand.Pushdown
