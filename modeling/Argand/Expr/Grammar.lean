import Argand.Expr.Basic
import Argand.Expr.Lexeme

/-!
# Reading expressions

The grammar of expressions over lexemes :

* an expression is a chain of terms with plus or minus signs between them;
* a term is a chain of signed operands with a multiplication or division sign between them, or
  nothing where the next one begins with a number, a name or a parenthesis;
* a signed operand is a power behind any number of signs;
* a power is a primary, or a primary raised to a signed operand;
* a primary is a number, a name, a call, or an expression in parentheses.

Chains associate to the left, powers to the right.

No expression nests deeper than `nestingLimit`. Whatever stands inside a signed operand is one
level deeper than the operand, and each operand of a chain is one level deeper than the one before
it, since it adds a node above all of them. The readers of signed operands are therefore stacked :
`levels n` has one for each of the `n` levels that are left, and each is built from those below it.
`expression` and `term` take the stack and spend it from the top.
-/

namespace Argand

/-- Reads something from the front of the lexemes, and gives it with what follows. -/
abbrev Reader (α : Type) :=
  List Lexeme → Except SyntaxError (α × List Lexeme)

namespace Grammar

/-- Fails at the next lexeme, or at `stop`, the end of the text, if there is none. -/
def fail {α : Type} (stop : Nat) (ts : List Lexeme) (cause : SyntaxCause) :
    Except SyntaxError α :=
  match ts with
  | [] => .error ⟨stop, cause⟩
  | t :: _ => .error ⟨t.position, cause⟩

/-! ## Chains -/

/-- The operation that joins the next term of an expression, and what follows its sign. -/
def termOperation? : List Lexeme → Option (String × List Lexeme)
  | ⟨.plus, _⟩ :: ts => some ("add", ts)
  | ⟨.minus, _⟩ :: ts => some ("subtract", ts)
  | _ => none

/-- The operation that joins the next signed operand of a term, and what follows its sign, if it
has one. -/
def operandOperation? : List Lexeme → Option (String × List Lexeme)
  | ⟨.times, _⟩ :: ts => some ("multiply", ts)
  | ⟨.divide, _⟩ :: ts => some ("divide", ts)
  | ⟨.number v, p⟩ :: ts => some ("multiply", ⟨.number v, p⟩ :: ts)
  | ⟨.name n, p⟩ :: ts => some ("multiply", ⟨.name n, p⟩ :: ts)
  | ⟨.opening, p⟩ :: ts => some ("multiply", ⟨.opening, p⟩ :: ts)
  | _ => none

/-- Reads with the topmost reader of a stack. -/
def top (stop : Nat) (stack : List (Reader Expr)) : Reader Expr :=
  match stack with
  | [] => fun ts => fail stop ts .nestedTooDeeply
  | read :: _ => read

/-- Goes on with a chain whose operands so far make up `left`. -/
def chainFrom (stop : Nat) (operation? : List Lexeme → Option (String × List Lexeme))
    (stack : List (Reader Expr)) (left : Expr) : Reader Expr := fun ts =>
  match operation? ts with
  | none => .ok (left, ts)
  | some (operation, ts) =>
    match stack with
    | [] => fail stop ts .nestedTooDeeply
    | read :: stack => do
      let (right, ts) ← read ts
      chainFrom stop operation? stack (.call operation [left, right]) ts

/-- Reads a chain, each operand with the next reader of the stack. -/
def chain (stop : Nat) (operation? : List Lexeme → Option (String × List Lexeme))
    (stack : List (Reader Expr)) : Reader Expr := fun ts => do
  let (first, ts) ← top stop stack ts
  chainFrom stop operation? stack.tail first ts

/-- Reads a term. -/
def term (stop : Nat) (stack : List (Reader Expr)) : Reader Expr :=
  chain stop operandOperation? stack

/-- The readers of terms that spend a stack of readers of signed operands. -/
def terms (stop : Nat) : List (Reader Expr) → List (Reader Expr)
  | [] => []
  | read :: stack => term stop (read :: stack) :: terms stop stack

/-- Reads an expression. -/
def expression (stop : Nat) (stack : List (Reader Expr)) : Reader Expr :=
  chain stop termOperation? (terms stop stack)

/-! ## Operands -/

/-- Reads the operands of a call that has some, up to the closing parenthesis, as long as there are no
more than `most`. -/
def operandsFrom (stop : Nat) (read : Reader Expr) : Nat → Reader (List Expr)
  | 0, ts => fail stop ts .expectedCommaOrClosing
  | most + 1, ts => do
    let (first, ts) ← read ts
    match ts with
    | ⟨.comma, _⟩ :: ts => do
      let (others, ts) ← operandsFrom stop read most ts
      .ok (first :: others, ts)
    | ⟨.closing, _⟩ :: ts => .ok ([first], ts)
    | ts => fail stop ts .expectedCommaOrClosing

/-- Reads the operands of a call after its opening parenthesis. An operand takes a lexeme at least, so
there are never more of them than `operandsFrom` goes along with. -/
def operands (stop : Nat) (read : Reader Expr) : Reader (List Expr)
  | ⟨.closing, _⟩ :: ts => .ok ([], ts)
  | ts => operandsFrom stop read (ts.length + 1) ts

/-- Reads a primary, whose inside takes the stack `below`. -/
def primary (stop : Nat) (below : List (Reader Expr)) : Reader Expr
  | ⟨.number value, _⟩ :: ts => .ok (.literal value, ts)
  | ⟨.name name, _⟩ :: ⟨.opening, _⟩ :: ts => do
    let (args, ts) ← operands stop (expression stop below) ts
    .ok (.call name args, ts)
  | ⟨.name name, _⟩ :: ts => .ok (.symbol name, ts)
  | ⟨.opening, _⟩ :: ts => do
    let (inner, ts) ← expression stop below ts
    match ts with
    | ⟨.closing, _⟩ :: ts => .ok (.group inner, ts)
    | ts => fail stop ts .expectedClosing
  | [] => fail stop [] .unexpectedEnd
  | ts => fail stop ts .expectedOperand

/-- Reads a power, whose inside takes the stack `below`. -/
def power (stop : Nat) (below : List (Reader Expr)) : Reader Expr := fun ts => do
  let (base, ts) ← primary stop below ts
  match ts with
  | ⟨.power, _⟩ :: ts => do
    let (exponent, ts) ← top stop below ts
    .ok (.call "pow" [base, exponent], ts)
  | ts => .ok (base, ts)

/-- Reads a signed operand, whose inside takes the stack `below`. A plus sign leaves no trace. -/
def signed (stop : Nat) (below : List (Reader Expr)) : Reader Expr
  | ⟨.minus, _⟩ :: ts => do
    let (operand, ts) ← top stop below ts
    .ok (.call "negate" [operand], ts)
  | ⟨.plus, _⟩ :: ts => top stop below ts
  | ts => power stop below ts

/-- The readers of signed operands with up to `n` levels left, the highest first. -/
def levels (stop : Nat) : Nat → List (Reader Expr)
  | 0 => []
  | n + 1 =>
    let below := levels stop n
    signed stop below :: below

end Grammar

/-- The greatest number of levels of an expression. -/
def nestingLimit : Nat := 256

/-- Reads lexemes as one expression that leaves nothing over. -/
def Expr.ofLexemes (stop : Nat) (ts : List Lexeme) : Except SyntaxError Expr := do
  let (e, rest) ← Grammar.expression stop (Grammar.levels stop nestingLimit) ts
  match rest with
  | [] => .ok e
  | rest => Grammar.fail stop rest .trailingInput

/-- Reads a text as an expression. -/
def Expr.parse (source : String) : Except SyntaxError Expr := do
  let ts ← scan 0 source.toList
  Expr.ofLexemes (utf8Length source.toList) ts

end Argand
