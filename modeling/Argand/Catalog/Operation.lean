import Argand.Point

/-!
# The catalog of operations

The operations an expression may use, with their names (`Operation.name`) and their values at points
(`Unary.apply`, `Binary.apply`). A name belongs to one operation, which takes either one operand or
two, so `Unary.ofName?` and `Binary.ofName?` together find an operation by its name and its number
of operands. The named constants are here too.

Values are written over whatever elementary functions the reals come with.
-/

namespace Argand

/-! ## Names -/

/-- The operations on one point. -/
inductive Unary where
  | cbrt | cos | cosh | cot | coth | csc | csch | exp | inverse | log | multiplyI | negate
  | sec | sech | sin | sinh | sqrt | tan | tanh
deriving Repr, DecidableEq

/-- The operations on two points. -/
inductive Binary where
  | add | divide | multiply | pow | subtract
deriving Repr, DecidableEq

/-- The operations of the catalog. -/
inductive Operation where
  | unary (f : Unary)
  | binary (f : Binary)
deriving Repr, DecidableEq

/-- The name of an operation on one point. -/
def Unary.name : Unary → String
  | cbrt => "cbrt"
  | cos => "cos"
  | cosh => "cosh"
  | cot => "cot"
  | coth => "coth"
  | csc => "csc"
  | csch => "csch"
  | exp => "exp"
  | inverse => "inverse"
  | log => "log"
  | multiplyI => "multiply_i"
  | negate => "negate"
  | sec => "sec"
  | sech => "sech"
  | sin => "sin"
  | sinh => "sinh"
  | sqrt => "sqrt"
  | tan => "tan"
  | tanh => "tanh"

/-- The name of an operation on two points. -/
def Binary.name : Binary → String
  | add => "add"
  | divide => "divide"
  | multiply => "multiply"
  | pow => "pow"
  | subtract => "subtract"

/-- The operations on one point, by name. -/
def Unary.all : List Unary :=
  [.cbrt, .cos, .cosh, .cot, .coth, .csc, .csch, .exp, .inverse, .log, .multiplyI, .negate, .sec,
    .sech, .sin, .sinh, .sqrt, .tan, .tanh]

/-- The operations on two points, by name. -/
def Binary.all : List Binary :=
  [.add, .divide, .multiply, .pow, .subtract]

/-- The operation on one point of a name. -/
def Unary.ofName? (name : String) : Option Unary :=
  all.find? (·.name = name)

/-- The operation on two points of a name. -/
def Binary.ofName? (name : String) : Option Binary :=
  all.find? (·.name = name)

namespace Operation

/-- The name of an operation. -/
def name : Operation → String
  | unary f => f.name
  | binary f => f.name

/-- The number of operands of an operation. -/
def arity : Operation → Nat
  | unary _ => 1
  | binary _ => 2

/-- Every operation, by name. -/
def all : List Operation :=
  [.binary .add, .unary .cbrt, .unary .cos, .unary .cosh, .unary .cot, .unary .coth, .unary .csc,
    .unary .csch, .binary .divide, .unary .exp, .unary .inverse, .unary .log, .binary .multiply,
    .unary .multiplyI, .unary .negate, .binary .pow, .unary .sec, .unary .sech, .unary .sin,
    .unary .sinh, .unary .sqrt, .binary .subtract, .unary .tan, .unary .tanh]

/-- The operation of a name. -/
def ofName? (name : String) : Option Operation :=
  all.find? (·.name = name)

/-- The operation of a name and a number of operands. -/
def lookup? (name : String) (operands : Nat) : Option Operation :=
  (ofName? name).filter (·.arity = operands)

end Operation

/-! ## Values -/

section Values

variable {R : Type} [Add R] [Sub R] [Mul R] [Div R] [Neg R] [OfScientific R] [Elementary R]

namespace Point

/-- A quarter turn about zero. -/
@[inline] def quarterTurn (a : Point R) : Point R :=
  ⟨-a.im, a.re⟩

/-- The logarithm whose imaginary part is the angle. -/
@[inline] def log (a : Point R) : Point R :=
  ⟨Elementary.ln (Elementary.hypot a.re a.im), a.angle⟩

@[inline] def exp (a : Point R) : Point R :=
  let m := Elementary.exp a.re
  ⟨m * Elementary.cos a.im, m * Elementary.sin a.im⟩

@[inline] def pow (a b : Point R) : Point R :=
  exp (b * log a)

@[inline] def sinh (a : Point R) : Point R :=
  let grown := exp a
  (grown - grown⁻¹) * (0.5 : R)

@[inline] def cosh (a : Point R) : Point R :=
  let grown := exp a
  (grown + grown⁻¹) * (0.5 : R)

@[inline] def tanh (a : Point R) : Point R :=
  let grown := exp a
  let shrunk := grown⁻¹
  (grown - shrunk) / (grown + shrunk)

@[inline] def sin (a : Point R) : Point R :=
  -quarterTurn (sinh (quarterTurn a))

@[inline] def cos (a : Point R) : Point R :=
  cosh (quarterTurn a)

@[inline] def tan (a : Point R) : Point R :=
  -quarterTurn (tanh (quarterTurn a))

@[inline] def sqrt (a : Point R) : Point R :=
  exp (log a * (0.5 : R))

@[inline] def cbrt (a : Point R) : Point R :=
  exp (log a / (3.0 : R))

end Point

/-- The value of an operation on one point. -/
@[specialize] def Unary.apply : Unary → Point R → Point R
  | cbrt, a => a.cbrt
  | cos, a => a.cos
  | cosh, a => a.cosh
  | cot, a => a.tan⁻¹
  | coth, a => a.tanh⁻¹
  | csc, a => a.sin⁻¹
  | csch, a => a.sinh⁻¹
  | exp, a => a.exp
  | inverse, a => a⁻¹
  | log, a => a.log
  | multiplyI, a => a.quarterTurn
  | negate, a => -a
  | sec, a => a.cos⁻¹
  | sech, a => a.cosh⁻¹
  | sin, a => a.sin
  | sinh, a => a.sinh
  | sqrt, a => a.sqrt
  | tan, a => a.tan
  | tanh, a => a.tanh

/-- The value of an operation on two points. -/
@[specialize] def Binary.apply : Binary → Point R → Point R → Point R
  | add, a, b => a + b
  | divide, a, b => a / b
  | multiply, a, b => a * b
  | pow, a, b => a.pow b
  | subtract, a, b => a - b

/-- The value of an operation at a list of as many points as it takes. -/
def Operation.valueAt? : Operation → List (Point R) → Option (Point R)
  | unary f, [a] => some (f.apply a)
  | binary f, [a, b] => some (f.apply a b)
  | _, _ => none

end Values

/-! ## Constants -/

/-- The named constants. -/
inductive Constant where
  | i | e | pi | phi
deriving Repr, DecidableEq

namespace Constant

def name : Constant → String
  | i => "i"
  | e => "e"
  | pi => "pi"
  | phi => "phi"

def value : Constant → Point Float
  | i => ⟨0.0, 1.0⟩
  | e => ⟨2.718281828459045, 0.0⟩
  | pi => ⟨3.141592653589793, 0.0⟩
  | phi => ⟨1.618033988749895, 0.0⟩

/-- The text of a constant in a shader. -/
def literal : Constant → String
  | i => "vec2(0.0, 1.0)"
  | e => "vec2(2.718281828459045, 0.0)"
  | pi => "vec2(3.141592653589793, 0.0)"
  | phi => "vec2(1.618033988749895, 0.0)"

def all : List Constant :=
  [i, e, pi, phi]

/-- The constant of a name. -/
def ofName? (name : String) : Option Constant :=
  all.find? (·.name = name)

end Constant

end Argand
