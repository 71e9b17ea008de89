import Argand.Kernel.Term

/-!
# Kernels

A `Program` is a named function of points : its parameters and a term over them. A `Kernel` is a
list of programs together with the definitions of the operations they need, in an order in which
every operation is defined before it is called. `Kernel.source` is the text of all definitions, the
programs last. Engines ask a kernel for a program by name and number of parameters
(`Kernel.require`), and get it as a function of points.
-/

namespace Argand

/-! ## Programs -/

/-- A named function with its parameters and its value. -/
structure Program where
  name : String
  params : List String
  term : Term params

namespace Program

/-- The program of a name, parameters and an expression. -/
def ofExpr (name : String) (params : List String) (e : Expr) : Except CompileError Program :=
  (e.resolve params).map fun term => ⟨name, params, term⟩

/-- The number of parameters. -/
def arity (p : Program) : Nat :=
  p.params.length

/-- The text of the value. -/
def text (p : Program) : String :=
  String.ofList p.term.write

/-- The definition in a shader. -/
def definition (p : Program) : String :=
  "vec2 " ++ p.name ++ "(" ++ ", ".intercalate (p.params.map ("vec2 " ++ ·)) ++ ") \x7b return " ++
    p.text ++ "; \x7d"

section Values

variable {R : Type} [Add R] [Sub R] [Mul R] [Div R] [Neg R] [OfScientific R] [Elementary R]

/-- The value at a list of arguments, if the list has all that the program reads. -/
def eval? (p : Program) (args : List (Point R)) : Option (Point R) :=
  p.term.eval? args

/-- A program in one parameter as a function. -/
@[inline] def map (p : Program) (_ : p.arity = 1) (z : Point R) : Point R :=
  p.term.eval fun _ => z

/-- A program in two parameters as a function. -/
@[inline] def map₂ (p : Program) (_ : p.arity = 2) (z c : Point R) : Point R :=
  p.term.eval fun slot => if slot.val = 0 then z else c

end Values

end Program

/-- The text of an expression in a shader, over declared variables. -/
def compile (e : Expr) (declared : List String) : Except CompileError String :=
  (e.resolve declared).map fun term => String.ofList term.write

/-- The program of an expression over declared variables. -/
def lower (e : Expr) (declared : List String) : Except CompileError Program :=
  Program.ofExpr "f" declared e

/-! ## Kernels -/

/-- A definition in a shader. -/
inductive Definition where
  | operation (o : Operation)
  | program (p : Program)

namespace Definition

def text : Definition → String
  | operation o => o.definition
  | program p => p.definition

/-- The operations that a definition calls. -/
def calls : Definition → List Operation
  | operation o => o.body.calls
  | program p => p.term.operations

end Definition

/-- Programs, and the operations they need in an order of definition. -/
structure Kernel where
  operations : List Operation
  programs : List Program

/-- A program that an expression is to become. -/
structure Function where
  name : String
  params : List String
  value : Expr

namespace Kernel

/-- The kernel of some functions. The first function that has no program decides the error. -/
def build (functions : List Function) : Except CompileError Kernel := do
  let programs ← functions.mapM fun f => Program.ofExpr f.name f.params f.value
  let used := programs.flatMap (·.term.operations)
  .ok ⟨Operation.emissionOrder (Operation.all.filter (used.contains ·)), programs⟩

/-- Reads a text as an expression. -/
def parse (source : String) : Except CompileError Expr :=
  (Expr.parse source).mapError .malformed

/-- The kernel of one function, given by its text. -/
def single (name : String) (params : List String) (source : String) :
    Except CompileError Kernel := do
  let e ← parse source
  build [⟨name, params, e⟩]

/-- The kernel of a function of `z` and its derivative. Both texts are read before either is
compiled. -/
def newton (f df : String) : Except CompileError Kernel := do
  let f ← parse f
  let df ← parse df
  build [⟨"f", ["z"], f⟩, ⟨"df", ["z"], df⟩]

/-- The kernel of a map of `z` with a parameter `c`. -/
def iteration (map : String) : Except CompileError Kernel :=
  single "f" ["z", "c"] map

/-- The definitions of a kernel, in the order of its source. -/
def definitions (k : Kernel) : List Definition :=
  k.operations.map .operation ++ k.programs.map .program

/-- The source of a kernel, a line for each definition. -/
def source (k : Kernel) : String :=
  String.join (k.definitions.map fun d => d.text ++ "\n")

/-- The first program of a name. -/
def entry? (k : Kernel) (name : String) : Option Program :=
  k.programs.find? (·.name = name)

/-- The first program of a name, which has to have `n` parameters. -/
def require (k : Kernel) (name : String) (n : Nat) :
    Except CompileError { p : Program // p.arity = n } :=
  match k.entry? name with
  | some p => if h : p.arity = n then .ok ⟨p, h⟩ else .error (.unknownOperation name n)
  | none => .error (.unknownOperation name n)

end Kernel

end Argand
