import Argand.Catalog.Operation

/-!
# Shader bodies

The body of an operation in a shader : declarations of vectors and a returned vector, in the part of
the shading language that the catalog needs. `Operation.body` is the body of each operation and
`Operation.definition` the function that has it, named `c_` and the name of the operation.

A body is data, so that one can ask which operations it calls (`Body.calls`) as well as how it is
written. Blanks around an operator are part of how a body is written, and operators carry them.
-/

namespace Argand.Shader

/-- The names that stand for vectors in a body : its parameters and its local vectors. -/
inductive Variable where
  | a | b | epa | ema
deriving Repr, DecidableEq

/-- The built-in functions from reals to reals. -/
inductive Function where
  | exp | log | sin | cos
deriving Repr, DecidableEq

/-- The real operators. -/
inductive RealOperator where
  | plus | minus | times
deriving Repr, DecidableEq

/-- A real expression. -/
inductive Scalar where
  /-- The number `units / 10 ^ places`; a `bare` one is written from its point on. -/
  | number (units places : Nat) (bare : Bool)
  | x (v : Variable)
  | y (v : Variable)
  | negate (s : Scalar)
  | operate (o : RealOperator) (spaced : Bool) (s t : Scalar)
  | apply (f : Function) (s : Scalar)
  | atan (s t : Scalar)
  | dot (v w : Variable)
  | length (v : Variable)
deriving Repr, DecidableEq

/-- A vector expression. -/
inductive Vec where
  | named (v : Variable)
  | pair (x y : Scalar)
  | negate (v : Vec)
  | plus (v w : Vec)
  | minus (v w : Vec)
  | scale (spaced : Bool) (s : Scalar) (v : Vec)
  | quotient (spaced : Bool) (v : Vec) (s : Scalar)
  | paren (v : Vec)
  | unary (f : Unary) (v : Vec)
  | binary (f : Binary) (v w : Vec)
deriving Repr, DecidableEq

/-- Local vectors in the order of their declarations, and the result. -/
structure Body where
  locals : List (Variable × Vec)
  result : Vec
deriving Repr, DecidableEq

/-! ## Writing -/

def Variable.write : Variable → String
  | a => "a"
  | b => "b"
  | epa => "epa"
  | ema => "ema"

def Function.write : Function → String
  | exp => "exp"
  | log => "log"
  | sin => "sin"
  | cos => "cos"

def RealOperator.write : RealOperator → String
  | plus => "+"
  | minus => "-"
  | times => "*"

/-- An operator with or without blanks around it. -/
def writeSpaced (spaced : Bool) (sign : String) : String :=
  if spaced then " " ++ sign ++ " " else sign

/-- The digits of a number with `places` of them behind the point. -/
def writeNumber (units places : Nat) (bare : Bool) : String :=
  let fraction := toString (units % Nat.pow 10 places)
  let zeros := String.ofList (List.replicate (places - fraction.length) '0')
  (if bare then "" else toString (units / Nat.pow 10 places)) ++ "." ++ zeros ++ fraction

def Scalar.write : Scalar → String
  | number units places bare => writeNumber units places bare
  | x v => v.write ++ ".x"
  | y v => v.write ++ ".y"
  | negate s => "-" ++ s.write
  | operate o spaced s t => s.write ++ writeSpaced spaced o.write ++ t.write
  | apply f s => f.write ++ "(" ++ s.write ++ ")"
  | atan s t => "atan(" ++ s.write ++ ", " ++ t.write ++ ")"
  | dot v w => "dot(" ++ v.write ++ ", " ++ w.write ++ ")"
  | length v => "length(" ++ v.write ++ ")"

def Vec.write : Vec → String
  | named v => v.write
  | pair x y => "vec2(" ++ x.write ++ ", " ++ y.write ++ ")"
  | negate v => "-" ++ v.write
  | plus v w => v.write ++ " + " ++ w.write
  | minus v w => v.write ++ " - " ++ w.write
  | scale spaced s v => s.write ++ writeSpaced spaced "*" ++ v.write
  | quotient spaced v s => v.write ++ writeSpaced spaced "/" ++ s.write
  | paren v => "(" ++ v.write ++ ")"
  | unary f v => "c_" ++ f.name ++ "(" ++ v.write ++ ")"
  | binary f v w => "c_" ++ f.name ++ "(" ++ v.write ++ ", " ++ w.write ++ ")"

def Body.write (body : Body) : String :=
  String.join (body.locals.map fun l => "vec2 " ++ l.1.write ++ " = " ++ l.2.write ++ "; ") ++
    "return " ++ body.result.write ++ ";"

/-! ## Calls -/

/-- The operations a vector expression calls. -/
def Vec.calls : Vec → List Operation
  | named _ => []
  | pair _ _ => []
  | negate v => v.calls
  | plus v w => v.calls ++ w.calls
  | minus v w => v.calls ++ w.calls
  | scale _ _ v => v.calls
  | quotient _ v _ => v.calls
  | paren v => v.calls
  | unary f v => .unary f :: v.calls
  | binary f v w => .binary f :: v.calls ++ w.calls

/-- The operations a body calls. -/
def Body.calls (body : Body) : List Operation :=
  body.locals.flatMap (·.2.calls) ++ body.result.calls

end Argand.Shader

namespace Argand

open Shader

/-! ## The bodies of the catalog -/

/-- A body that only returns. -/
def Shader.Body.returning (v : Vec) : Body :=
  ⟨[], v⟩

/-- The body that inverts the value of another operation. -/
def Shader.Body.inverseOf (f : Unary) : Body :=
  .returning (.unary .inverse (.unary f (.named .a)))

/-- The body of an operation on one vector, `a`. -/
def Unary.body : Unary → Body
  | cbrt => .returning
      (.unary .exp (.quotient true (.unary .log (.named .a)) (.number 30 1 false)))
  | cos => .returning (.unary .cosh (.unary .multiplyI (.named .a)))
  | cosh => ⟨[(.epa, .unary .exp (.named .a))],
      .scale true (.number 5 1 true)
        (.paren (.plus (.named .epa) (.unary .inverse (.named .epa))))⟩
  | cot => .inverseOf .tan
  | coth => .inverseOf .tanh
  | csc => .inverseOf .sin
  | csch => .inverseOf .sinh
  | exp => .returning
      (.scale false (.apply .exp (.x .a)) (.pair (.apply .cos (.y .a)) (.apply .sin (.y .a))))
  | inverse => .returning (.quotient false (.pair (.x .a) (.negate (.y .a))) (.dot .a .a))
  | log => .returning (.pair (.apply .log (.length .a)) (.atan (.y .a) (.x .a)))
  | multiplyI => .returning (.pair (.negate (.y .a)) (.x .a))
  | negate => .returning (.negate (.named .a))
  | sec => .inverseOf .cos
  | sech => .inverseOf .cosh
  | sin => .returning
      (.negate (.unary .multiplyI (.unary .sinh (.unary .multiplyI (.named .a)))))
  | sinh => ⟨[(.epa, .unary .exp (.named .a))],
      .scale true (.number 5 1 true)
        (.paren (.minus (.named .epa) (.unary .inverse (.named .epa))))⟩
  | sqrt => .returning
      (.unary .exp (.scale false (.number 5 1 false) (.unary .log (.named .a))))
  | tan => .returning
      (.negate (.unary .multiplyI (.unary .tanh (.unary .multiplyI (.named .a)))))
  | tanh => ⟨[(.epa, .unary .exp (.named .a)), (.ema, .unary .inverse (.named .epa))],
      .binary .divide (.minus (.named .epa) (.named .ema))
        (.plus (.named .epa) (.named .ema))⟩

/-- The body of an operation on two vectors, `a` and `b`. -/
def Binary.body : Binary → Body
  | add => .returning (.plus (.named .a) (.named .b))
  | divide => .returning
      (.quotient true
        (.pair
          (.operate .plus true (.operate .times true (.x .a) (.x .b))
            (.operate .times true (.y .a) (.y .b)))
          (.operate .minus true (.operate .times true (.y .a) (.x .b))
            (.operate .times true (.x .a) (.y .b))))
        (.dot .b .b))
  | multiply => .returning
      (.pair
        (.operate .minus false (.operate .times false (.x .a) (.x .b))
          (.operate .times false (.y .a) (.y .b)))
        (.operate .plus false (.operate .times false (.x .a) (.y .b))
          (.operate .times false (.y .a) (.x .b))))
  | pow => .returning
      (.unary .exp (.binary .multiply (.named .b) (.unary .log (.named .a))))
  | subtract => .returning (.minus (.named .a) (.named .b))

namespace Operation

/-- The body of an operation. -/
def body : Operation → Body
  | unary f => f.body
  | binary f => f.body

/-- The definition of an operation in a shader. -/
def definition (o : Operation) : String :=
  let parameters := match o with
    | unary _ => "vec2 a"
    | binary _ => "vec2 a, vec2 b"
  "vec2 c_" ++ o.name ++ "(" ++ parameters ++ ")\x7b " ++ o.body.write ++ " \x7d"

/-- The operations that the body of an operation calls, by name. -/
def dependencies (o : Operation) : List Operation :=
  all.filter (o.body.calls.contains ·)

end Operation

end Argand
