import Argand.Expr.Basic
import Argand.Proofs.Decimal.Sign
import Argand.Proofs.Expr.Scanning

/-!
# Parts of expressions

The numbers of an expression (`Expr.literals`) and the calls in it (`Expr.calls`), from all of its nodes.
An expression is well-formed (`Expr.WellFormed`) if texts can have its parts : its names are identifiers,
and its numbers are finite and have no sign.
-/

namespace Argand

/-- A double that a text of digits can stand for : finite, and with the sign bit clear. -/
def IsMagnitude (x : Float) : Prop :=
  x.isFinite = true ∧ SignClear x

instance (x : Float) : Decidable (IsMagnitude x) :=
  inferInstanceAs (Decidable (_ ∧ _))

namespace Expr

mutual

/-- The numbers in an expression. -/
def literals : Expr → List Float
  | symbol _ => []
  | literal value => [value]
  | call _ operands => operandLiterals operands
  | group inner => inner.literals

/-- The numbers in operands. -/
def operandLiterals : List Expr → List Float
  | [] => []
  | e :: es => e.literals ++ operandLiterals es

end

mutual

/-- The names that an expression calls, with the numbers of operands. -/
def calls : Expr → List (String × Nat)
  | symbol _ => []
  | literal _ => []
  | call operation operands => (operation, operands.length) :: operandCalls operands
  | group inner => inner.calls

/-- The calls in operands. -/
def operandCalls : List Expr → List (String × Nat)
  | [] => []
  | e :: es => e.calls ++ operandCalls es

end

mutual

/-- The names of an expression are identifiers and its numbers are magnitudes. -/
def WellFormed : Expr → Prop
  | symbol name => IsIdentifier name.toList
  | literal value => IsMagnitude value
  | call operation operands => IsIdentifier operation.toList ∧ OperandsWellFormed operands
  | group inner => inner.WellFormed

/-- Operands are well-formed. -/
def OperandsWellFormed : List Expr → Prop
  | [] => True
  | e :: es => e.WellFormed ∧ OperandsWellFormed es

end

mutual

/-- Whether an expression is well-formed can be computed. -/
def decidableWellFormed : ∀ e : Expr, Decidable e.WellFormed
  | symbol name => inferInstanceAs (Decidable (IsIdentifier name.toList))
  | literal value => inferInstanceAs (Decidable (IsMagnitude value))
  | call operation operands =>
    have := decidableOperandsWellFormed operands
    inferInstanceAs (Decidable (IsIdentifier operation.toList ∧ OperandsWellFormed operands))
  | group inner => inner.decidableWellFormed

/-- Whether operands are well-formed can be computed. -/
def decidableOperandsWellFormed : ∀ es : List Expr, Decidable (OperandsWellFormed es)
  | [] => .isTrue trivial
  | e :: es =>
    have := e.decidableWellFormed
    have := decidableOperandsWellFormed es
    inferInstanceAs (Decidable (e.WellFormed ∧ OperandsWellFormed es))

end

instance : DecidablePred WellFormed :=
  decidableWellFormed

end Expr

end Argand
