import Argand.Expr.Grammar

/-!
# Reading with a cursor

The readers of `Grammar` take lexemes from the front of a list and know by their stack how many levels are left. A
reader can do without both : it keeps the lexemes where they are, with one more slot for the end of the text, and a
`Cursor` of an index and a counter of levels, which all of its routines share. A routine raises the counter where it
goes a level deeper, and what it was before is put back by hand.

The calls of the routines to each other are made explicit. A routine that calls another one waits, as an `Activation`
that knows the cursor it was entered with and what it has to do next. A `State` is then the cursor, the calls that
wait, the innermost first, and what happens to the call inside all of them : it is entered, or is left with an
expression, or all reading has ended. `State.next` is a step from one call or return to the next one.

Two things can go wrong in a step that are no failures to read (`Fault`) : the cursor may be at none of the slots, and
a counter at zero may have to be lowered.
-/

namespace Argand.Pushdown

/-- What cannot be done. -/
inductive Fault where
  /-- The cursor is at none of the slots. -/
  | outside
  /-- A counter of levels is lowered that is at zero. -/
  | belowZero

/-- How far a reader has come. -/
structure Cursor where
  /-- The number of the next slot. -/
  index : Nat
  /-- The counter of levels. -/
  depth : Nat

/-- The cursor a level deeper. -/
def Cursor.deeper (c : Cursor) : Cursor :=
  { c with depth := c.depth + 1 }

/-- The cursor behind the next slot. -/
def Cursor.behind (c : Cursor) : Cursor :=
  { c with index := c.index + 1 }

/-- The two kinds of chains. -/
inductive Chain where
  /-- Terms with plus or minus signs between them, an expression. -/
  | sum
  /-- Signed operands with multiplication or division signs between them, or nothing : a term. -/
  | product

/-- What can be called. -/
inductive Routine where
  | chain (kind : Chain)
  | signed
  | power
  | primary
  /-- The operands of a call, up to its closing parenthesis. It knows the name and gives the call. -/
  | operands (name : String)

/-- What a routine that waits has to do with the expression it gets. -/
inductive Todo where
  /-- It is the next operand of a chain, behind an operation and what it joins the operand to, or the first one. -/
  | operand (kind : Chain) (before : Option (String × Expr))
  /-- It is the operand of a minus sign. -/
  | negated
  /-- It stands for itself, perhaps behind a plus sign. -/
  | plain
  /-- It may be the base of a power. -/
  | base
  /-- It is the exponent above a base. -/
  | exponent (below : Expr)
  /-- It is between parentheses. -/
  | grouped
  /-- It is a call with all its operands. -/
  | called
  /-- It is an operand of a call, behind some others. -/
  | listed (name : String) (before : List Expr)

/-- The routine that has something to do. -/
def Todo.routine : Todo → Routine
  | operand kind _ => .chain kind
  | negated | plain => .signed
  | base | exponent _ => .power
  | grouped | called => .primary
  | listed name _ => .operands name

/-- What a routine does next. -/
inductive Move where
  /-- It calls a routine and waits for it. -/
  | call (todo : Todo) (r : Routine)
  /-- It gives an expression to its caller. -/
  | give (e : Expr)
  /-- It fails, and so does all that waits for it. -/
  | fail (err : SyntaxError)

/-- The operation of the sign that goes on a chain, and whether the sign is one of its own. -/
def Chain.sign? : Chain → Option Token → Option (String × Bool)
  | sum, some .plus => some ("add", true)
  | sum, some .minus => some ("subtract", true)
  | product, some .times => some ("multiply", true)
  | product, some .divide => some ("divide", true)
  | product, some (.number _) | product, some (.name _) | product, some .opening => some ("multiply", false)
  | _, _ => none

/-- The routine that reads the operands of a chain. -/
def Chain.inner : Chain → Routine
  | sum => .chain .product
  | product => .signed

/-- What a chain amounts to with one operand more. -/
def joined (before : Option (String × Expr)) (e : Expr) : Expr :=
  match before with
  | none => e
  | some (operation, left) => .call operation [left, e]

section Steps

variable (stop : Nat) (ls : List Lexeme)

/-- The tokens of a text with their places. There is none at the end. -/
def slots : List (Option Token × Nat) :=
  ls.map (fun l => (some l.token, l.position)) ++ [(none, stop)]

/-- Looks at the next slot. -/
def peek (c : Cursor) : Except Fault (Option Token × Nat) :=
  match (slots stop ls)[c.index]? with
  | some slot => .ok slot
  | none => .error .outside

/-- Looks at the next slot and goes along it, unless it is the end. -/
def bump (c : Cursor) : Except Fault ((Option Token × Nat) × Cursor) := do
  let slot ← peek stop ls c
  .ok (slot, if slot.1.isSome then c.behind else c)

/-- Goes a level deeper, if there is one left. -/
def descend (c : Cursor) (inside : Cursor → Except Fault (Cursor × Move)) : Except Fault (Cursor × Move) :=
  if nestingLimit < c.deeper.depth then do
    let (_, place) ← peek stop ls c.deeper
    .ok (c.deeper, .fail ⟨place, .nestedTooDeeply⟩)
  else inside c.deeper

/-- Comes back from a level with an expression. -/
def ascend (c : Cursor) (e : Expr) : Except Fault (Cursor × Move) :=
  match c.depth with
  | 0 => .error .belowZero
  | depth + 1 => .ok ({ c with depth := depth }, .give e)

/-- Calls the operation of a name that is followed by a parenthesis. -/
def named (c : Cursor) (name : String) : Except Fault (Cursor × Move) := do
  let ((token, _), behind) ← bump stop ls c
  match token with
  | some .opening => .ok (behind, .call .called (.operands name))
  | _ => .ok (c, .give (.symbol name))

/-- Begins a routine. -/
def enter (c : Cursor) : Routine → Except Fault (Cursor × Move)
  | .chain kind => .ok (c, .call (.operand kind none) kind.inner)
  | .signed => descend stop ls c fun c => do
    let ((token, _), behind) ← bump stop ls c
    match token with
    | some .minus => .ok (behind, .call .negated .signed)
    | some .plus => .ok (behind, .call .plain .signed)
    | _ => .ok (c, .call .plain .power)
  | .power => .ok (c, .call .base .primary)
  | .primary => do
    let ((token, place), c) ← bump stop ls c
    match token with
    | some (.number value) => .ok (c, .give (.literal value))
    | some (.name name) => named stop ls c name
    | some .opening => .ok (c, .call .grouped (.chain .sum))
    | none => .ok (c, .fail ⟨place, .unexpectedEnd⟩)
    | _ => .ok (c, .fail ⟨place, .expectedOperand⟩)
  | .operands name => do
    let ((token, _), behind) ← bump stop ls c
    match token with
    | some .closing => .ok (behind, .give (.call name []))
    | _ => .ok (c, .call (.listed name []) (.chain .sum))

/-- Goes on with a routine that was entered at a cursor and now gets an expression. -/
def goOn (entry c : Cursor) (e : Expr) : Todo → Except Fault (Cursor × Move)
  | .operand kind before => do
    let ((token, _), behind) ← bump stop ls c
    match kind.sign? token with
    | some (operation, own) =>
      descend stop ls (if own then behind else c) fun c =>
        .ok (c, .call (.operand kind (some (operation, joined before e))) kind.inner)
    | none => .ok ({ c with depth := entry.depth }, .give (joined before e))
  | .negated => ascend c (.call "negate" [e])
  | .plain => ascend c e
  | .base => do
    let ((token, _), behind) ← bump stop ls c
    match token with
    | some .power => .ok (behind, .call (.exponent e) .signed)
    | _ => .ok (c, .give e)
  | .exponent below => .ok (c, .give (.call "pow" [below, e]))
  | .grouped => do
    let ((token, place), c) ← bump stop ls c
    match token with
    | some .closing => .ok (c, .give (.group e))
    | _ => .ok (c, .fail ⟨place, .expectedClosing⟩)
  | .called => .ok (c, .give e)
  | .listed name before => do
    let ((token, place), c) ← bump stop ls c
    match token with
    | some .comma => .ok (c, .call (.listed name (before ++ [e])) (.chain .sum))
    | some .closing => .ok (c, .give (.call name (before ++ [e])))
    | _ => .ok (c, .fail ⟨place, .expectedCommaOrClosing⟩)

end Steps

/-! ## Calls -/

/-- A call that waits for another one. -/
structure Activation where
  /-- The cursor it was entered with. -/
  entry : Cursor
  todo : Todo

/-- What happens to the innermost call. -/
inductive Control where
  | entering (r : Routine)
  /-- A call of `r`, entered with a cursor, is left with an expression. -/
  | leaving (r : Routine) (entry : Cursor) (e : Expr)
  /-- There is no call any more. -/
  | ended (outcome : Except SyntaxError Expr)

/-- How far a reading has come. -/
structure State where
  cursor : Cursor
  control : Control
  /-- The calls that wait, the innermost first. -/
  waiting : List Activation

namespace State

/-- The first state : an expression is read from the first slot on. -/
def start : State :=
  ⟨⟨0, 0⟩, .entering (.chain .sum), []⟩

/-- The state after a move of a call of `r` that was entered at a cursor. -/
def follow (r : Routine) (entry : Cursor) (waiting : List Activation) : Cursor × Move → State
  | (c, .call todo r') => ⟨c, .entering r', ⟨entry, todo⟩ :: waiting⟩
  | (c, .give e) => ⟨c, .leaving r entry e, waiting⟩
  | (c, .fail err) => ⟨c, .ended (.error err), []⟩

variable (stop : Nat) (ls : List Lexeme)

/-- The next state, if reading has not ended. An expression that nobody waits for has to reach to the end. -/
def next (s : State) : Except Fault (Option State) :=
  match s.control, s.waiting with
  | .ended _, _ => .ok none
  | .entering r, waiting => (enter stop ls s.cursor r).map fun m => some (follow r s.cursor waiting m)
  | .leaving _ _ e, a :: waiting =>
    (goOn stop ls a.entry s.cursor e a.todo).map fun m => some (follow a.todo.routine a.entry waiting m)
  | .leaving _ _ e, [] => (peek stop ls s.cursor).map fun
    | (none, _) => some ⟨s.cursor, .ended (.ok e), []⟩
    | (some _, place) => some ⟨s.cursor, .ended (.error ⟨place, .trailingInput⟩), []⟩

/-- Some steps, or fewer if reading ends before. -/
def run : Nat → State → Except Fault State
  | 0, s => .ok s
  | n + 1, s => do
    match ← s.next stop ls with
    | none => .ok s
    | some s => run n s

end State

end Argand.Pushdown
