import Argand.Proofs.Kernel.Faces
import Argand.Proofs.Kernel.Resolution

/-!
# Arguments of programs

A program gets its arguments as a list, and reads them at the places of its variables (`Term.slots`). It has
no value exactly if the list ends before one of them (`Term.eval?_eq_none`), and its value depends on the
arguments at these places only (`Term.eval?_congr`). The places are those at which the variables of the
expression are declared first (`Expr.Uses`), where a named constant is not a variable even if it is declared
(`lower_safe`).

Engines give a program one argument or two, as many as it has parameters, so for them there is always a
value (`Program.eval?_singleton`, `Program.eval?_pair`).
-/

namespace Argand

/-! ## Places -/

namespace Expr

variable {declared : List String} {slot : Nat}

/-- An expression has a variable that is first declared at a place. -/
def Uses (declared : List String) (e : Expr) (slot : Nat) : Prop :=
  ∃ name, symbol name ∈ e.nodes ∧ (∀ c : Constant, c.name ≠ name) ∧
    declared.idxOf? name = some slot

theorem uses_symbol {name : String} : (symbol name).Uses declared slot ↔
    (∀ c : Constant, c.name ≠ name) ∧ declared.idxOf? name = some slot := by
  simp [Uses, nodes]

theorem not_uses_literal {value : Float} : ¬(literal value).Uses declared slot := by
  simp [Uses, nodes]

theorem uses_group {inner : Expr} : (group inner).Uses declared slot ↔ inner.Uses declared slot := by
  simp [Uses, nodes]

theorem uses_unary {name : String} {a : Expr} :
    (call name [a]).Uses declared slot ↔ a.Uses declared slot := by
  simp [Uses, nodes, operandNodes]

theorem uses_binary {name : String} {a b : Expr} :
    (call name [a, b]).Uses declared slot ↔ a.Uses declared slot ∨ b.Uses declared slot := by
  simp [Uses, nodes, operandNodes, or_and_right, exists_or]

end Expr

namespace Term

variable {declared : List String}

/-- The places of the variables of a term. -/
def slots : Term declared → List Nat
  | .variable slot => [slot.val]
  | constant _ | literal _ => []
  | unary _ a => a.slots
  | binary _ a b => a.slots ++ b.slots

end Term

theorem mem_slots_of_resolveSymbol {declared : List String} {name : String} {t : Term declared}
    (h : resolveSymbol declared name = .ok t) {slot : Nat} :
    slot ∈ t.slots ↔ (Expr.symbol name).Uses declared slot := by
  rw [Expr.uses_symbol, ← Constant.ofName?_eq_none, List.idxOf?_eq_map_finIdxOf?_val, ← slot?]
  unfold resolveSymbol at h
  split at h
  · rename_i c found
    cases h
    simp [Term.slots, found]
  · rename_i place unnamed found
    cases h
    simp [Term.slots, unnamed, found, eq_comm]
  · cases h

/-- The places of a term are those that its expression uses. -/
theorem Expr.Resolves.mem_slots {declared : List String} {slot : Nat} {e : Expr} {t : Term declared}
    (h : e.Resolves declared t) : slot ∈ t.slots ↔ e.Uses declared slot := by
  induction h with
  | symbol named => exact mem_slots_of_resolveSymbol named
  | literal => exact iff_of_false List.not_mem_nil not_uses_literal
  | group _ ih => exact ih.trans uses_group.symm
  | unary _ ih => rw [Term.slots, ih, uses_unary]
  | binary _ _ left right => rw [Term.slots, List.mem_append, left, right, uses_binary]

/-! ## Values -/

section Value

variable {R : Type} [Add R] [Sub R] [Mul R] [Div R] [Neg R] [OfScientific R] [Elementary R]

namespace Term

variable {declared : List String} {args others : List (Point R)}

/-- A term has no value exactly if it has a place that the arguments end before. -/
theorem eval?_eq_none :
    ∀ t : Term declared, t.eval? args = none ↔ ∃ slot ∈ t.slots, args.length ≤ slot
  | .variable slot => by rw [eval?, List.getElem?_eq_none_iff, slots]; simp
  | constant c => iff_of_false nofun nofun
  | literal value => iff_of_false nofun nofun
  | unary f a => by rw [eval?, Option.map_eq_none_iff, eval?_eq_none a, slots]
  | binary f a b => by
    simp only [slots, List.mem_append, or_and_right, exists_or, ← eval?_eq_none a, ← eval?_eq_none b,
      eval?]
    cases a.eval? args <;> cases b.eval? args <;> simp

/-- The value of a term depends on the arguments at its places. -/
theorem eval?_congr :
    ∀ t : Term declared, (∀ slot ∈ t.slots, args[slot]? = others[slot]?) →
      t.eval? args = t.eval? others
  | .variable slot, same => same slot List.mem_cons_self
  | constant c, _ => rfl
  | literal value, _ => rfl
  | unary f a, same => by rw [eval?, eval?, eval?_congr a same]
  | binary f a b, same => by
    obtain ⟨left, right⟩ := List.forall_mem_append.mp same
    rw [eval?, eval?, eval?_congr a left, eval?_congr b right]

/-- Arguments that are there for all variables give a term its value. -/
theorem eval?_eq_some_eval {env : Fin declared.length → Point R}
    (h : ∀ slot, args[slot.val]? = some (env slot)) :
    ∀ t : Term declared, t.eval? args = some (t.eval env)
  | .variable slot => h slot
  | constant c => rfl
  | literal value => rfl
  | unary f a => by rw [eval?, eval?_eq_some_eval h a]; rfl
  | binary f a b => by rw [eval?, eval?_eq_some_eval h a, eval?_eq_some_eval h b]; rfl

end Term

namespace Program

theorem eval?_singleton (p : Program) (h : p.arity = 1) (z : Point R) :
    p.eval? [z] = some (p.map h z) := by
  refine Term.eval?_eq_some_eval (fun slot => ?_) p.term
  have : slot.val = 0 := Nat.lt_one_iff.mp (h ▸ slot.isLt)
  rw [this]
  rfl

theorem eval?_pair (p : Program) (h : p.arity = 2) (z c : Point R) :
    p.eval? [z, c] = some (p.map₂ h z c) := by
  refine Term.eval?_eq_some_eval (fun slot => ?_) p.term
  have : slot.val < 2 := h ▸ slot.isLt
  obtain first | second : slot.val = 0 ∨ slot.val = 1 := by omega
  · simp [first]
  · simp [second]

end Program

/-- The program of an expression has no value exactly if the arguments end before a variable that the
expression uses. So it has one at no fewer arguments than are declared, and the arguments that it does not
use have no part in the value. Whatever the walk would do with an operation of another number of operands,
it finds the term of the expression. -/
theorem lower_safe (e : Expr) (declared : List String) :
    (∀ p, lower e declared = .ok p →
      (∀ args : List (Point R), p.eval? args = none ↔
        ∃ slot, e.Uses declared slot ∧ args.length ≤ slot) ∧
      (∀ args : List (Point R), declared.length ≤ args.length → ∃ v, p.eval? args = some v) ∧
      ∀ args others : List (Point R), (∀ slot, e.Uses declared slot → args[slot]? = others[slot]?) →
        p.eval? args = p.eval? others) ∧
    ∀ mismatch, e.walk declared mismatch = e.resolve declared := by
  refine ⟨?_, fun mismatch => e.walk_eq_resolve mismatch⟩
  intro p lowered
  obtain ⟨t, ht, rfl⟩ := lower_eq_ok.mp lowered
  refine ⟨fun args => ?_, fun args long => t.exists_eval?_eq_some long, fun args others same => ?_⟩
  · simp only [← (e.resolves ht).mem_slots]
    exact t.eval?_eq_none
  · exact t.eval?_congr fun slot there => same slot ((e.resolves ht).mem_slots.mp there)

end Value

/-- Of two variables one is declared twice, and a constant hides a declared name : the program needs the
first argument and the fourth. -/
theorem lower_safe_hidden :
    let e := Expr.call "add" [.symbol "z", .group (.call "multiply" [.symbol "e", .symbol "c"])]
    ∃ p, lower e ["z", "e", "z", "c"] = .ok p ∧
      p.eval? [(⟨1, 2⟩ : Point Float), ⟨3, 4⟩, ⟨5, 6⟩] = none ∧
      (∃ v, p.eval? [(⟨1, 2⟩ : Point Float), ⟨3, 4⟩, ⟨5, 6⟩, ⟨7, 8⟩] = some v) ∧
      p.eval? [(⟨1, 2⟩ : Point Float), ⟨3, 4⟩, ⟨5, 6⟩, ⟨7, 8⟩] =
        p.eval? [⟨1, 2⟩, ⟨0, 0⟩, ⟨0, 1⟩, ⟨7, 8⟩] := by
  intro e
  have z : ∀ c : Constant, c.name ≠ "z" := fun c => by cases c <;> decide
  have c : ∀ c : Constant, c.name ≠ "c" := fun c => by cases c <;> decide
  have hidden : ¬∀ c : Constant, c.name ≠ "e" := fun unnamed => unnamed .e rfl
  have uses : ∀ slot, e.Uses ["z", "e", "z", "c"] slot ↔ 0 = slot ∨ 3 = slot := by
    intro slot
    rw [Expr.uses_binary, Expr.uses_group, Expr.uses_binary, Expr.uses_symbol, Expr.uses_symbol,
      Expr.uses_symbol]
    simp [z, c, hidden, List.idxOf?_cons]
  obtain ⟨missing, full, same⟩ := (@lower_safe Float _ _ _ _ _ _ _ e ["z", "e", "z", "c"]).1 _ rfl
  refine ⟨_, rfl, (missing _).mpr ⟨3, (uses 3).mpr (.inr rfl), by decide⟩, full _ (by decide),
    same _ _ fun slot used => ?_⟩
  obtain rfl | rfl := (uses slot).mp used <;> rfl

end Argand
