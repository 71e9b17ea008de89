import Argand.Decimal.Layout

/-!
# Expressions

An expression in complex variables, as it is written : `2z^3 - sin(z)` is a difference of a product
and a call. Every operator is a call of the operation it stands for, so an expression knows nothing
of which operations exist. `Expr.print` writes an expression with all its calls spelled out, and
`Expr.height` is the number of nodes on its longest branch.
-/

namespace Argand

/-- An expression. -/
inductive Expr where
  /-- A variable or a named constant. -/
  | symbol (name : String)
  /-- A real number. -/
  | literal (value : Float)
  /-- An operation and its operands, in order. -/
  | call (operation : String) (operands : List Expr)
  /-- An expression in parentheses. -/
  | group (inner : Expr)
deriving Repr, BEq, Inhabited

namespace Expr

mutual

/-- The text of an expression, with every operator written as a call. -/
def print : Expr → List Char
  | symbol name => name.toList
  | literal value => (Layout.plain.write value).toList
  | call operation operands => operation.toList ++ '(' :: printOperands operands ++ [')']
  | group inner => '(' :: inner.print ++ [')']

/-- Operands with a comma and a space between them. -/
def printOperands : List Expr → List Char
  | [] => []
  | [e] => e.print
  | e :: es => e.print ++ ',' :: ' ' :: printOperands es

end

instance : ToString Expr := ⟨fun e => String.ofList e.print⟩

mutual

/-- The number of nodes on the longest branch. -/
def height : Expr → Nat
  | symbol _ => 1
  | literal _ => 1
  | call _ operands => operandsHeight operands + 1
  | group inner => inner.height + 1

/-- The greatest height among operands. -/
def operandsHeight : List Expr → Nat
  | [] => 0
  | e :: es => max e.height (operandsHeight es)

end

end Expr

end Argand
