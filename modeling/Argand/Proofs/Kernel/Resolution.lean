import Argand.Kernel.Basic
import Argand.Proofs.Catalog.Names
import Argand.Proofs.Outcome

/-!
# What is wrong with an expression

Expressions have no kernel because of single nodes : a name that is neither declared nor that of a constant,
or a call of what is no operation with so many operands (`Expr.Meaningless`). Of all such nodes the first one
is reported, where a call comes before its operands and those from the left (`Expr.nodes`). Of several
functions the first one with such a node is reported, and whatever is wrong with a text comes before
whatever is wrong with an expression (`compile_reports`).

That is easiest to see on a walk that takes the terms of the operands as a list, and puts an operation and
the list together in the end (`Expr.walk`). If the operation was found under the number of operands, it
takes as many as there are in the list, so what is to happen otherwise has no part in the term
(`Expr.walk_eq_resolve`).
-/

namespace Argand

variable {declared : List String}

/-! ## The walk -/

/-- The term of an operation and of terms it is called with; `mismatch` if it takes more or fewer. -/
def Term.ofCall (mismatch : Except CompileError (Term declared)) :
    Operation → List (Term declared) → Except CompileError (Term declared)
  | .unary f, [a] => .ok (.unary f a)
  | .binary f, [a, b] => .ok (.binary f a b)
  | _, _ => mismatch

theorem Term.exists_ofCall (mismatch : Except CompileError (Term declared)) :
    ∀ {o : Operation} {terms : List (Term declared)}, terms.length = o.arity →
      ∃ t, ofCall mismatch o terms = .ok t
  | .unary _, [_], _ => ⟨_, rfl⟩
  | .binary _, [_, _], _ => ⟨_, rfl⟩

namespace Expr

section Walk

variable (declared) (mismatch : Except CompileError (Term declared))

mutual

/-- The term of an expression, where the operation of a call is looked up before its operands. -/
def walk : Expr → Except CompileError (Term declared)
  | symbol name => resolveSymbol declared name
  | literal value => .ok (.literal value)
  | group inner => inner.walk
  | call name operands =>
    match Operation.lookup? name operands.length with
    | none => .error (.unknownOperation name operands.length)
    | some o => walkOperands operands >>= Term.ofCall mismatch o

/-- The terms of operands. -/
def walkOperands : List Expr → Except CompileError (List (Term declared))
  | [] => .ok []
  | e :: es => do
    let t ← e.walk
    let ts ← walkOperands es
    .ok (t :: ts)

end

variable {declared}

theorem length_walkOperands :
    ∀ {es : List Expr} {terms : List (Term declared)}, walkOperands declared mismatch es = .ok terms →
      terms.length = es.length
  | [], _, h => by
    cases h
    rfl
  | e :: es, _, h => by
    obtain ⟨t, -, h⟩ := bind_eq_ok.mp h
    obtain ⟨ts, others, h⟩ := bind_eq_ok.mp h
    cases h
    exact congrArg (· + 1) (length_walkOperands others)

/-- The walk finds the same term, whatever a mismatch leads to. -/
theorem walk_eq_resolve : ∀ e : Expr, e.walk declared mismatch = e.resolve declared
  | symbol _ => rfl
  | literal _ => rfl
  | group inner => walk_eq_resolve inner
  | call name [] => by
    rw [walk, List.length_nil, Operation.lookup?_of_arity (by decide) (by decide)]
    rfl
  | call name [a] => by
    rw [walk, List.length_singleton, Operation.lookup?_one, resolve]
    cases Unary.ofName? name with
    | none => rfl
    | some f =>
      rw [Option.map_some, walkOperands, walk_eq_resolve a]
      cases a.resolve declared <;> rfl
  | call name [a, b] => by
    rw [walk, show [a, b].length = 2 from rfl, Operation.lookup?_two, resolve]
    cases Binary.ofName? name with
    | none => rfl
    | some f =>
      rw [Option.map_some, walkOperands, walkOperands, walk_eq_resolve a, walk_eq_resolve b]
      cases a.resolve declared with
      | error e => rfl
      | ok x => cases b.resolve declared <;> rfl
  | call name (a :: b :: c :: es) => by
    rw [walk, Operation.lookup?_of_arity (by simp) (by simp), resolve]
    all_goals nofun

end Walk

/-! ## Offences -/

mutual

/-- The nodes of an expression : a call before its operands, and those from the left. -/
def nodes : Expr → List Expr
  | symbol name => [symbol name]
  | literal value => [literal value]
  | call operation operands => call operation operands :: operandNodes operands
  | group inner => group inner :: inner.nodes

/-- The nodes of operands. -/
def operandNodes : List Expr → List Expr
  | [] => []
  | e :: es => e.nodes ++ operandNodes es

end

/-- A node means nothing by itself : its name is neither declared nor that of a constant, or it is a call of
what is no operation with so many operands. -/
def Meaningless (declared : List String) : Expr → Prop
  | symbol name => name ∉ declared ∧ ∀ c : Constant, c.name ≠ name
  | call name operands => ∀ o : Operation, o.name = name → o.arity ≠ operands.length
  | literal _ | group _ => False

/-- What is wrong with a node by itself. -/
def offence? (declared : List String) : Expr → Option CompileError
  | symbol name =>
    if name ∈ declared ∨ ∃ c ∈ Constant.all, c.name = name then none else some (.unbound name)
  | call name operands =>
    if ∃ o ∈ Operation.all, o.name = name ∧ o.arity = operands.length then none
    else some (.unknownOperation name operands.length)
  | literal _ | group _ => none

/-- What is wrong with the first node of an expression that something is wrong with. -/
def firstOffence? (declared : List String) (e : Expr) : Option CompileError :=
  e.nodes.findSome? (offence? declared)

variable (declared)

theorem isSome_offence? : ∀ e : Expr, (e.offence? declared).isSome = true ↔ e.Meaningless declared
  | symbol name => by simp [offence?, Meaningless, Constant.mem_all]
  | call name operands => by simp [offence?, Meaningless, Operation.mem_all]
  | literal _ => iff_of_false Bool.false_ne_true id
  | group _ => iff_of_false Bool.false_ne_true id

theorem offence?_symbol (name : String) :
    offence? declared (symbol name) = error? (resolveSymbol declared name) := by
  unfold resolveSymbol
  split
  · rename_i c found
    have named : ∃ c ∈ Constant.all, c.name = name := ⟨c, c.mem_all, Constant.ofName?_eq_some.mp found⟩
    rw [offence?, if_pos (.inr named)]
    rfl
  · rename_i slot _ found
    have there : name ∈ declared := by
      rw [slot?, List.finIdxOf?_eq_some_iff] at found
      exact found.1 ▸ List.get_mem declared slot
    rw [offence?, if_pos (.inl there)]
    rfl
  · rename_i unnamed absent
    rw [offence?, if_neg]
    · rfl
    · rintro (there | ⟨c, -, named⟩)
      · exact List.finIdxOf?_eq_none_iff.mp absent there
      · exact Constant.ofName?_eq_none.mp unnamed c named

theorem offence?_call (name : String) (operands : List Expr) :
    offence? declared (call name operands) =
      match Operation.lookup? name operands.length with
      | none => some (.unknownOperation name operands.length)
      | some _ => none := by
  cases found : Operation.lookup? name operands.length with
  | none =>
    rw [offence?, if_neg]
    rintro ⟨o, -, named, takes⟩
    exact Operation.lookup?_eq_none.mp found o named takes
  | some o =>
    rw [offence?, if_pos ⟨o, o.mem_all, Operation.lookup?_eq_some.mp found⟩]

mutual

/-- The walk stops at the first node that something is wrong with. -/
theorem error?_walk (mismatch : Except CompileError (Term declared)) :
    ∀ e : Expr, error? (e.walk declared mismatch) = e.firstOffence? declared
  | symbol name => by
    rw [walk, ← offence?_symbol, firstOffence?, nodes, List.findSome?_singleton]
  | literal _ => rfl
  | group inner => error?_walk mismatch inner
  | call name operands => by
    rw [firstOffence?, nodes, List.findSome?_cons, offence?_call, walk]
    cases found : Operation.lookup? name operands.length with
    | none => rfl
    | some o =>
      -- the operation takes as many operands as the walk has found terms for
      have finished : ∀ terms, walkOperands declared mismatch operands = .ok terms →
          error? (Term.ofCall mismatch o terms) = none := by
        intro terms h
        have takes := (length_walkOperands mismatch h).trans (Operation.lookup?_eq_some.mp found).2.symm
        obtain ⟨t, ht⟩ := Term.exists_ofCall mismatch takes
        rw [ht]
        rfl
      show error? (walkOperands declared mismatch operands >>= Term.ofCall mismatch o) = _
      rw [error?_bind finished, Option.or_none, error?_walkOperands mismatch operands]

theorem error?_walkOperands (mismatch : Except CompileError (Term declared)) :
    ∀ es : List Expr, error? (walkOperands declared mismatch es) =
      (operandNodes es).findSome? (offence? declared)
  | [] => rfl
  | e :: es => by
    rw [walkOperands, error?_bind fun t _ => error?_bind_ok _ (t :: ·), error?_walk mismatch e,
      error?_walkOperands mismatch es, operandNodes, List.findSome?_append]
    rfl

end

theorem error?_resolve (e : Expr) : error? (e.resolve declared) = e.firstOffence? declared := by
  rw [← walk_eq_resolve (.error (.unbound ""))]
  exact error?_walk declared _ e

theorem exists_firstOffence? (e : Expr) :
    (∃ err, e.firstOffence? declared = some err) ↔ ∃ node ∈ e.nodes, node.Meaningless declared := by
  simp only [← Option.isSome_iff_exists, firstOffence?, List.findSome?_isSome_iff, isSome_offence?]

end Expr

/-! ## Reports -/

theorem error?_compile (e : Expr) (declared : List String) :
    error? (compile e declared) = e.firstOffence? declared := by
  rw [compile, error?_map, e.error?_resolve]

theorem error?_ofExpr (name : String) (params : List String) (e : Expr) :
    error? (Program.ofExpr name params e) = e.firstOffence? params := by
  rw [Program.ofExpr, error?_map, e.error?_resolve]

namespace Kernel

theorem error?_build (functions : List Function) :
    error? (build functions) = functions.findSome? fun f => f.value.firstOffence? f.params := by
  refine (error?_bind_ok _ _).trans ((error?_mapM functions).trans ?_)
  exact congrArg (functions.findSome? ·) (funext fun f => error?_ofExpr f.name f.params f.value)

theorem build_pair_eq_error {f g : Function} {err : CompileError} :
    build [f, g] = .error err ↔ compile f.value f.params = .error err ∨
      (∃ text, compile f.value f.params = .ok text) ∧ compile g.value g.params = .error err := by
  rw [← error?_eq_some, ← error?_eq_some, ← error?_eq_some, ← error?_eq_none, error?_build,
    error?_compile, error?_compile, List.findSome?_cons, List.findSome?_singleton]
  cases f.value.firstOffence? f.params <;> simp

end Kernel

/-- Exactly the expressions with a meaningless node have neither a text nor a program, and the error is that
of the first such node. Of several functions the error is that of the first one that has no program. Of a
function and its derivative, both texts are read before either is compiled. -/
theorem compile_reports (e : Expr) (declared : List String) (functions : List Function) (f df : String)
    (err : CompileError) :
    ((∃ err, compile e declared = .error err) ↔ ∃ node ∈ e.nodes, node.Meaningless declared) ∧
    ((∃ err, lower e declared = .error err) ↔ ∃ node ∈ e.nodes, node.Meaningless declared) ∧
    (compile e declared = .error err ↔ e.firstOffence? declared = some err) ∧
    (lower e declared = .error err ↔ e.firstOffence? declared = some err) ∧
    (Kernel.build functions = .error err ↔
      functions.findSome? (fun f => f.value.firstOffence? f.params) = some err) ∧
    (Kernel.newton f df = .error err ↔
      Kernel.parse f = .error err ∨ ∃ e, Kernel.parse f = .ok e ∧
        (Kernel.parse df = .error err ∨ ∃ de, Kernel.parse df = .ok de ∧
          (compile e ["z"] = .error err ∨
            (∃ text, compile e ["z"] = .ok text) ∧ compile de ["z"] = .error err))) := by
  have compiled (err : CompileError) :
      compile e declared = .error err ↔ e.firstOffence? declared = some err := by
    rw [← error?_eq_some, error?_compile]
  have lowered (err : CompileError) :
      lower e declared = .error err ↔ e.firstOffence? declared = some err := by
    rw [lower, ← error?_eq_some, error?_ofExpr]
  refine ⟨?_, ?_, compiled err, lowered err, ?_, ?_⟩
  · rw [exists_congr compiled, e.exists_firstOffence? declared]
  · rw [exists_congr lowered, e.exists_firstOffence? declared]
  · rw [← error?_eq_some, Kernel.error?_build]
  · simp only [Kernel.newton, bind_eq_error, Kernel.build_pair_eq_error]

/-- A name without a meaning is not reported if it is an operand of a call of no operation. -/
example : compile (.call "add" [.symbol "z", .call "sin" [.symbol "x", .symbol "z"]]) ["z"] =
    .error (.unknownOperation "sin" 2) :=
  rfl

end Argand
