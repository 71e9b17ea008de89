import Argand.Proofs.Kernel.Mentions

/-!
# Listing by marks

The order of definitions can be found by a walk that marks an operation when it first comes to it, goes on
to all that its body calls, and lists the operation afterwards (`visit`). In between an operation is marked
and not listed yet, and would be missed if the walk came to it again. But it was on the way to what the walk
is at, so it has a greater rank (`Agrees.visit`). Hence the walk lists what `emit` does, one root after the
other.

For any names, what is listed has no duplicates, has exactly what the operations of these names depend on,
and has every operation after all that it depends on itself (`emissionOrderOfNames_closure`).
-/

namespace Argand.Operation

/-! ## The walk -/

/-- The operations that a walk has come to, and those that it has listed. -/
structure Walk where
  marked : List Operation
  listed : List Operation

/-- Lists an operation after what it depends on, unless the walk has come to it before. -/
def visit (w : Walk) (o : Operation) : Walk :=
  if o ∈ w.marked then w
  else
    let below := o.dependencies.attach.foldl (fun w d => visit w d.1) ⟨o :: w.marked, w.listed⟩
    ⟨below.marked, below.listed ++ [o]⟩
termination_by o.rank
decreasing_by exact rank_lt_of_mem_dependencies d.2

/-- Visits the operation of a name, if there is one. -/
def visitName (w : Walk) (name : String) : Walk :=
  match ofName? name with
  | some o => visit w o
  | none => w

theorem visit_of_mem {w : Walk} {o : Operation} (h : o ∈ w.marked) : visit w o = w := by
  rw [visit, if_pos h]

theorem visit_of_not_mem {w : Walk} {o : Operation} (h : o ∉ w.marked) :
    visit w o = ⟨(o.dependencies.foldl visit ⟨o :: w.marked, w.listed⟩).marked,
      (o.dependencies.foldl visit ⟨o :: w.marked, w.listed⟩).listed ++ [o]⟩ := by
  rw [visit, if_neg h, List.foldl_attach]

/-- A walk has listed an order, and has marked this and what is pending. -/
structure Agrees (pending : List Operation) (w : Walk) (order : List Operation) : Prop where
  listed : w.listed = order
  marked : ∀ x, x ∈ w.marked ↔ x ∈ order ∨ x ∈ pending

namespace Agrees

theorem foldl {pending : List Operation} : ∀ (roots : List Operation) {w : Walk} {order : List Operation},
    Agrees pending w order → (∀ o ∈ roots, ∀ w order, Agrees pending w order →
      Agrees pending (visit w o) (emit order o)) →
    Agrees pending (roots.foldl visit w) (roots.foldl emit order)
  | [], _, _, h, _ => h
  | o :: roots, w, order, h, step =>
    foldl roots (step o List.mem_cons_self w order h) fun d hd => step d (List.mem_cons_of_mem o hd)

/-- An operation that is below all that is pending is listed by the walk as it is emitted. -/
theorem visit (o : Operation) (pending : List Operation) (w : Walk) (order : List Operation)
    (h : Agrees pending w order) (above : ∀ p ∈ pending, o.rank < p.rank) :
    Agrees pending (visit w o) (emit order o) := by
  obtain ⟨rfl, marked⟩ := h
  have settled : o ∈ w.marked ↔ o ∈ w.listed :=
    (marked o).trans (or_iff_left fun there => Nat.lt_irrefl _ (above o there))
  rw [emit_eq]
  split
  · rename_i there
    rw [visit_of_mem (settled.mpr there)]
    exact ⟨rfl, marked⟩
  · rename_i absent
    have entered : Agrees (o :: pending) ⟨o :: w.marked, w.listed⟩ w.listed := by
      refine ⟨rfl, fun x => ?_⟩
      rw [List.mem_cons, List.mem_cons, marked]
      exact or_left_comm
    have below := foldl o.dependencies entered fun d hd w order agrees => by
      have less := rank_lt_of_mem_dependencies hd
      refine visit d (o :: pending) w order agrees (List.forall_mem_cons.mpr ⟨less, fun p hp => ?_⟩)
      exact Nat.lt_trans less (above p hp)
    rw [visit_of_not_mem fun there => absent (settled.mp there)]
    refine ⟨congrArg (· ++ [o]) below.listed, fun x => (below.marked x).trans ?_⟩
    rw [List.mem_append, List.mem_singleton, List.mem_cons, or_assoc]
termination_by o.rank
decreasing_by exact less

theorem visitNames : ∀ {names : List String} {w : Walk} {order : List Operation}, Agrees [] w order →
    Agrees [] (names.foldl visitName w) ((names.filterMap ofName?).foldl emit order)
  | [], _, _, h => h
  | name :: names, w, order, h => by
    rw [List.foldl_cons, visitName]
    cases found : ofName? name with
    | none =>
      rw [List.filterMap_cons_none found]
      exact visitNames h
    | some o =>
      rw [List.filterMap_cons_some found, List.foldl_cons]
      exact visitNames (visit o [] w order h nofun)

end Agrees

/-! ## What is listed -/

/-- The operations that names call for, as the walk lists them. -/
def walkNames (names : List String) : List Operation :=
  (names.foldl visitName ⟨[], []⟩).listed

theorem walkNames_eq (names : List String) : walkNames names = emissionOrderOfNames names :=
  (Agrees.visitNames ⟨rfl, fun _ => (or_self_iff).symm⟩).listed

theorem mem_roots {names : List String} {o : Operation} :
    o ∈ names.filterMap ofName? ↔ o.name ∈ names := by
  simp only [List.mem_filterMap, ofName?_eq_some, exists_eq_right']

/-- What an operation depends on is what its text mentions, save itself. -/
theorem mem_dependencies_iff_mentions {o d : Operation} :
    d ∈ o.dependencies ↔ d ≠ o ∧ Mentions o.body.write.toList d := by
  rw [o.mentions_body, ← mem_dependencies]
  refine ⟨fun needed => ⟨?_, needed⟩, And.right⟩
  rintro rfl
  exact Nat.lt_irrefl _ (rank_lt_of_mem_dependencies needed)

/-- In an order of definition, what a body calls is in front of it. -/
theorem Ordered.mem_take {order : List Operation} (h : Ordered order) (i : Fin order.length) {d : Operation}
    (needed : d ∈ order[i].dependencies) : d ∈ order.take i := by
  have split : order = order.take i ++ order[i] :: order.drop (i + 1) := by
    rw [Fin.getElem_fin, List.getElem_cons_drop, List.take_append_drop]
  exact h.mem_of_calls split (mem_dependencies.mp needed)

theorem Ordered.mem_take_of_transGen {order : List Operation} (h : Ordered order) (i : Fin order.length)
    {d : Operation} (needed : Relation.TransGen (fun o d => d ∈ o.dependencies) order[i] d) :
    d ∈ order.take i := by
  induction needed with
  | single call => exact h.mem_take i call
  | tail _ call ih =>
    obtain ⟨j, hj, rfl⟩ := List.mem_take_iff_getElem.mp ih
    obtain ⟨front, there⟩ := Nat.lt_min.mp hj
    exact List.take_subset_take_left order (Nat.le_of_lt front) (h.mem_take ⟨j, there⟩ call)

/-- What is emitted for names has no duplicates, has exactly what their operations depend on, and has every
operation after all that it depends on. It is what the walk lists, and dependencies are what the texts of
bodies mention. -/
theorem emissionOrderOfNames_closure (names : List String) :
    let order := emissionOrderOfNames names
    walkNames names = order ∧ order.Nodup ∧
    (∀ x, x ∈ order ↔ ∃ o : Operation, o.name ∈ names ∧
      Relation.ReflTransGen (fun o d => d ∈ o.dependencies) o x) ∧
    (∀ i : Fin order.length, ∀ d, Relation.TransGen (fun o d => d ∈ o.dependencies) order[i] d →
      d ∈ order.take i) ∧
    ∀ o d : Operation, d ∈ o.dependencies ↔ d ≠ o ∧ Mentions o.body.write.toList d := by
  intro order
  have ordered : Ordered order := ordered_emissionOrder _
  refine ⟨walkNames_eq names, ordered.nodup, fun x => ?_, fun i d => ordered.mem_take_of_transGen i,
    fun _ _ => mem_dependencies_iff_mentions⟩
  show x ∈ emissionOrder (names.filterMap ofName?) ↔ _
  simp only [mem_emissionOrder, mem_dependencies, mem_roots]

end Argand.Operation
