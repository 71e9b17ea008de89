import Argand.Catalog.Operation

/-!
# Names of the catalog

Everything in the catalog is found under its own name, so whatever is found under a name is what has it
(`find?_eq_some_of_named`). A lookup asks for a number of operands besides. With one operand it finds an
operation on one point, with two an operation on two points (`Operation.lookup?_one`,
`Operation.lookup?_two`), and with any other number nothing (`Operation.lookup?_of_arity`).
-/

namespace Argand

variable {name : String} {n : Nat}

theorem find?_eq_some_of_named {α : Type} {all : List α} {nameOf : α → String}
    (named : ∀ x, all.find? (nameOf · = nameOf x) = some x) {x : α} :
    all.find? (nameOf · = name) = some x ↔ nameOf x = name := by
  constructor
  · intro found
    exact of_decide_eq_true (@List.find?_some _ (nameOf · = name) _ _ found)
  · rintro rfl
    exact named x

theorem Constant.ofName?_eq_some {c : Constant} : ofName? name = some c ↔ c.name = name :=
  find?_eq_some_of_named fun c => by cases c <;> rfl

theorem Unary.ofName?_eq_some {f : Unary} : ofName? name = some f ↔ f.name = name :=
  find?_eq_some_of_named fun f => by cases f <;> rfl

theorem Binary.ofName?_eq_some {f : Binary} : ofName? name = some f ↔ f.name = name :=
  find?_eq_some_of_named fun f => by cases f <;> rfl

theorem Constant.mem_all (c : Constant) : c ∈ all := by
  cases c <;> decide

theorem Constant.ofName?_eq_none : ofName? name = none ↔ ∀ c : Constant, c.name ≠ name := by
  simp only [Option.eq_none_iff_forall_ne_some, ne_eq, ofName?_eq_some]

namespace Operation

variable {o d : Operation}

theorem mem_all (o : Operation) : o ∈ all := by
  rcases o with f | f <;> cases f <;> decide

theorem ofName?_eq_some : ofName? name = some o ↔ o.name = name :=
  find?_eq_some_of_named fun o => by rcases o with f | f <;> cases f <;> rfl

theorem name_injective (h : o.name = d.name) : o = d :=
  Option.some.inj ((ofName?_eq_some.mpr h).symm.trans (ofName?_eq_some.mpr rfl))

/-! ## Lookup -/

theorem lookup?_eq_some : lookup? name n = some o ↔ o.name = name ∧ o.arity = n := by
  rw [lookup?, Option.filter_eq_some_iff, ofName?_eq_some, decide_eq_true_iff]

theorem lookup?_eq_none :
    lookup? name n = none ↔ ∀ o : Operation, o.name = name → o.arity ≠ n := by
  simp only [Option.eq_none_iff_forall_ne_some, ne_eq, lookup?_eq_some, not_and]

theorem lookup?_one : lookup? name 1 = (Unary.ofName? name).map .unary := by
  ext o
  rw [lookup?_eq_some, Option.map_eq_some_iff]
  cases o with
  | unary f => simp [Operation.name, arity, Unary.ofName?_eq_some]
  | binary f => simp [arity]

theorem lookup?_two : lookup? name 2 = (Binary.ofName? name).map .binary := by
  ext o
  rw [lookup?_eq_some, Option.map_eq_some_iff]
  cases o with
  | unary f => simp [arity]
  | binary f => simp [Operation.name, arity, Binary.ofName?_eq_some]

theorem lookup?_of_arity (one : n ≠ 1) (two : n ≠ 2) : lookup? name n = none := by
  refine lookup?_eq_none.mpr fun o _ => ?_
  cases o with
  | unary f => exact one.symm
  | binary f => exact two.symm

end Operation

end Argand
