import Argand.Catalog.Order
import Argand.Expr.Grammar

/-!
# Terms

A `Term` is an expression all of whose names mean something : variables have become places in the
list of declared names, and calls have become operations of the catalog with the right number of
operands. `Expr.resolve` finds the term of an expression, or the first node that means nothing,
where a call comes before its operands. Parentheses leave no trace in a term, and a named constant
hides a declared variable of its name.

A term has a text, which calls operations by their names in a shader (`Term.write`), and a value
(`Term.eval?`). Both are read off the same term, so an expression that has one has the other.
-/

namespace Argand

/-- Why an expression has no kernel. -/
inductive CompileError where
  /-- The text is not an expression. -/
  | malformed (e : SyntaxError)
  /-- A name that is neither declared nor a named constant. -/
  | unbound (name : String)
  /-- A call of what is no operation with that number of operands. -/
  | unknownOperation (name : String) (operands : Nat)
deriving Repr, DecidableEq

/-- The wording of an error. -/
def CompileError.message : CompileError → String
  | malformed e => "Parse error at column " ++ toString e.position ++ ": " ++ e.cause.message
  | unbound name => "Invalid symbol name: '" ++ name ++ "'"
  | unknownOperation name operands =>
    "Invalid function name: '" ++ name ++ "' with " ++ toString operands ++ " argument(s)"

/-- An expression over declared variables whose names all mean something. -/
inductive Term (declared : List String) where
  | variable (slot : Fin declared.length)
  | constant (c : Constant)
  | literal (value : Float)
  | unary (f : Unary) (a : Term declared)
  | binary (f : Binary) (a b : Term declared)
deriving Repr

/-- The first place of a name among the declared ones. -/
def slot? (declared : List String) (name : String) : Option (Fin declared.length) :=
  declared.finIdxOf? name

/-- The meaning of a name in an expression. -/
def resolveSymbol (declared : List String) (name : String) :
    Except CompileError (Term declared) :=
  match Constant.ofName? name, slot? declared name with
  | some c, _ => .ok (.constant c)
  | none, some slot => .ok (.variable slot)
  | none, none => .error (.unbound name)

/-- The term of an expression over declared variables. -/
def Expr.resolve (declared : List String) : Expr → Except CompileError (Term declared)
  | .symbol name => resolveSymbol declared name
  | .literal value => .ok (.literal value)
  | .group inner => inner.resolve declared
  | .call name [a] =>
    match Unary.ofName? name with
    | some f => (a.resolve declared).map (.unary f)
    | none => .error (.unknownOperation name 1)
  | .call name [a, b] =>
    match Binary.ofName? name with
    | some f => do
      let a ← a.resolve declared
      let b ← b.resolve declared
      .ok (.binary f a b)
    | none => .error (.unknownOperation name 2)
  | .call name operands => .error (.unknownOperation name operands.length)

namespace Term

variable {declared : List String}

/-! ## Text -/

/-- The text of a term in a shader. -/
def write : Term declared → List Char
  | .variable slot => (declared.get slot).toList
  | constant c => c.literal.toList
  | literal value =>
    "vec2(".toList ++ (Layout.literal.write value).toList ++ ", 0.0)".toList
  | unary f a => "c_".toList ++ f.name.toList ++ '(' :: a.write ++ [')']
  | binary f a b => "c_".toList ++ f.name.toList ++ '(' :: a.write ++ ',' :: b.write ++ [')']

/-- The operations a term calls. -/
def operations : Term declared → List Operation
  | .variable _ => []
  | constant _ => []
  | literal _ => []
  | unary f a => .unary f :: a.operations
  | binary f a b => .binary f :: a.operations ++ b.operations

/-! ## Value -/

section Value

variable {R : Type} [Add R] [Sub R] [Mul R] [Div R] [Neg R] [OfScientific R] [Elementary R]

/-- A point of doubles among the points of another arithmetic. -/
@[inline] def embed (a : Point Float) : Point R :=
  ⟨Elementary.ofFloat a.re, Elementary.ofFloat a.im⟩

/-- The value of a term when every variable has one. -/
@[specialize] def eval (env : Fin declared.length → Point R) : Term declared → Point R
  | .variable slot => env slot
  | constant c => embed c.value
  | literal value => embed ⟨value, 0⟩
  | unary f a => f.apply (a.eval env)
  | binary f a b => f.apply (a.eval env) (b.eval env)

/-- The value of a term at a list of arguments; there is none if the term reads a variable that the
list is too short for. -/
def eval? (args : List (Point R)) : Term declared → Option (Point R)
  | .variable slot => args[slot.val]?
  | constant c => some (embed c.value)
  | literal value => some (embed ⟨value, 0⟩)
  | unary f a => (a.eval? args).map f.apply
  | binary f a b => do
    let x ← a.eval? args
    let y ← b.eval? args
    some (f.apply x y)

end Value

end Term

end Argand
