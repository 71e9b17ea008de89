import Argand.Catalog.Shader

/-!
# The order of definitions

In a shader an operation has to be defined before a body that calls it. `emissionOrder` lists the
operations that some given ones need, each once and after all that its body calls. No body calls
its own operation, directly or through others : `Operation.rank` goes down along calls, which is
what the listing ends by.
-/

namespace Argand.Operation

/-- The length of the longest chain of calls below an operation. -/
def rank : Operation → Nat
  | unary .exp | unary .inverse | unary .log | unary .multiplyI | unary .negate => 0
  | unary .cbrt | unary .sqrt | unary .cosh | unary .sinh | unary .tanh => 1
  | unary .cos | unary .sin | unary .tan | unary .coth | unary .csch | unary .sech => 2
  | unary .cot | unary .csc | unary .sec => 3
  | binary .pow => 1
  | binary _ => 0

theorem rank_lt_of_mem_dependencies {o d : Operation} (h : d ∈ o.dependencies) :
    d.rank < o.rank := by
  have table : ∀ o ∈ all, ∀ d ∈ o.dependencies, d.rank < o.rank := by decide
  refine table o ?_ d h
  rcases o with f | f <;> cases f <;> decide

/-- Puts an operation at the end of an order, after whatever it needs that is not there yet. -/
def emit (order : List Operation) (o : Operation) : List Operation :=
  if o ∈ order then order
  else (o.dependencies.attach.foldl (fun order d => emit order d.1) order) ++ [o]
termination_by o.rank
decreasing_by exact rank_lt_of_mem_dependencies d.2

/-- The operations needed by some given ones, each after those its body calls. -/
def emissionOrder (roots : List Operation) : List Operation :=
  roots.foldl emit []

/-- The emission order of operations given by name. Names of no operation are passed over. -/
def emissionOrderOfNames (names : List String) : List Operation :=
  emissionOrder (names.filterMap ofName?)

/-- The definitions of all operations, in order. -/
def preamble : String :=
  "\n".intercalate ((emissionOrder all).map definition)

end Argand.Operation
