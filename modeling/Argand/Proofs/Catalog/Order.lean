import Argand.Catalog.Order
import Argand.Proofs.Catalog.Names
import Mathlib.Logic.Relation

/-!
# What an order of definitions holds

An order of operations is `Ordered` if every operation of it is there once, after all that its body calls.
Emitting operations keeps an order so, keeps what it has, adds the operations that were asked for, and
adds nothing that those do not reach along calls (`Emitted`). The step is `emitted_emit`, by induction on
the rank; an operation is not among what it needs, since those have a lower rank.

So an emission order consists of what its roots reach (`mem_emissionOrder`), in an order of definition
(`ordered_emissionOrder`).
-/

namespace Argand.Operation

theorem mem_dependencies {o d : Operation} : d ∈ o.dependencies ↔ d ∈ o.body.calls := by
  rw [dependencies, List.mem_filter, List.contains_iff_mem]
  exact and_iff_right d.mem_all

/-! ## Calls of calls -/

/-- The first operation calls the second in its body, or calls one that reaches it. -/
abbrev Reaches : Operation → Operation → Prop :=
  Relation.ReflTransGen fun o d => d ∈ o.body.calls

theorem Reaches.rank_le {o x : Operation} (h : Reaches o x) : x.rank ≤ o.rank := by
  induction h with
  | refl => exact Nat.le_refl _
  | tail _ call ih =>
    have := rank_lt_of_mem_dependencies (mem_dependencies.mpr call)
    omega

/-! ## Orders -/

/-- Every operation of an order is there once, after all that its body calls. -/
inductive Ordered : List Operation → Prop
  | nil : Ordered []
  | snoc {order : List Operation} {o : Operation} (before : Ordered order) (fresh : o ∉ order)
      (needs : ∀ d ∈ o.body.calls, d ∈ order) : Ordered (order ++ [o])

namespace Ordered

theorem nodup {order : List Operation} (h : Ordered order) : order.Nodup := by
  induction h with
  | nil => exact List.nodup_nil
  | snoc _ fresh _ ih =>
    refine List.nodup_append.mpr ⟨ih, List.pairwise_singleton _ _, ?_⟩
    rintro x hx y hy rfl
    rw [List.mem_singleton.mp hy] at hx
    exact fresh hx

/-- What an operation of an order calls is before it. -/
theorem mem_of_calls {order : List Operation} (h : Ordered order) :
    ∀ {before after : List Operation} {o d : Operation}, order = before ++ o :: after →
      d ∈ o.body.calls → d ∈ before := by
  induction h with
  | nil =>
    intro before after o d split
    simp at split
  | @snoc order last _ fresh needs ih =>
    intro before after o d split call
    rcases List.eq_nil_or_concat after with rfl | ⟨after, x, rfl⟩
    · obtain ⟨rfl, rfl⟩ := List.append_inj' split rfl |>.imp id List.singleton_inj.mp
      exact needs d call
    · have split' : order ++ [last] = (before ++ o :: after) ++ [x] := by simpa using split
      exact ih (List.append_inj' split' rfl).1 call

/-- An order has whatever its operations reach. -/
theorem mem_of_reaches {order : List Operation} (h : Ordered order) {o x : Operation} (ho : o ∈ order)
    (reaches : Reaches o x) : x ∈ order := by
  induction reaches with
  | refl => exact ho
  | tail _ call ih =>
    obtain ⟨before, after, rfl⟩ := List.append_of_mem ih
    exact List.mem_append_left _ (h.mem_of_calls rfl call)

end Ordered

/-! ## Emission -/

/-- An order that comes from another one by emitting `roots`. -/
structure Emitted (order roots order' : List Operation) : Prop where
  ordered : Ordered order'
  keeps : order ⊆ order'
  mem_root : roots ⊆ order'
  reached : ∀ x ∈ order', x ∈ order ∨ ∃ o ∈ roots, Reaches o x

theorem emit_eq (order : List Operation) (o : Operation) :
    emit order o = if o ∈ order then order else o.dependencies.foldl emit order ++ [o] := by
  rw [emit, List.foldl_attach]

theorem emitted_foldl : ∀ {roots : List Operation} {order : List Operation}, Ordered order →
    (∀ o ∈ roots, ∀ order, Ordered order → Emitted order [o] (emit order o)) →
    Emitted order roots (roots.foldl emit order)
  | [], order, h, _ => ⟨h, List.Subset.refl order, List.nil_subset order, fun x hx => .inl hx⟩
  | o :: roots, order, h, step => by
    have first := step o List.mem_cons_self order h
    have others := emitted_foldl first.ordered fun d hd => step d (List.mem_cons_of_mem o hd)
    refine ⟨others.ordered, List.Subset.trans first.keeps others.keeps, ?_, ?_⟩
    · exact List.cons_subset.mpr ⟨others.keeps (first.mem_root List.mem_cons_self), others.mem_root⟩
    · intro x hx
      rcases others.reached x hx with hx | ⟨d, hd, reaches⟩
      · refine (first.reached x hx).imp id ?_
        rintro ⟨d, hd, reaches⟩
        exact ⟨d, List.mem_cons.mpr (.inl (List.mem_singleton.mp hd)), reaches⟩
      · exact .inr ⟨d, List.mem_cons_of_mem o hd, reaches⟩

theorem emitted_emit (o : Operation) (order : List Operation) (h : Ordered order) :
    Emitted order [o] (emit order o) := by
  rw [emit_eq]
  split
  · rename_i there
    refine ⟨h, List.Subset.refl order, ?_, fun x hx => .inl hx⟩
    exact List.cons_subset.mpr ⟨there, List.nil_subset order⟩
  · rename_i absent
    have below := emitted_foldl h fun d (hd : d ∈ o.dependencies) order => emitted_emit d order
    have needs : ∀ d ∈ o.body.calls, d ∈ o.dependencies.foldl emit order := fun d hd =>
      below.mem_root (mem_dependencies.mpr hd)
    have fresh : o ∉ o.dependencies.foldl emit order := by
      intro ho
      rcases below.reached o ho with ho | ⟨d, hd, reaches⟩
      · exact absent ho
      · have := rank_lt_of_mem_dependencies hd
        have := reaches.rank_le
        omega
    refine ⟨.snoc below.ordered fresh needs, List.Subset.trans below.keeps (List.subset_append_left _ _),
      List.subset_append_right _ _, ?_⟩
    intro x hx
    rcases List.mem_append.mp hx with hx | hx
    · refine (below.reached x hx).imp id ?_
      rintro ⟨d, hd, reaches⟩
      exact ⟨o, List.mem_singleton_self o, reaches.head (mem_dependencies.mp hd)⟩
    · exact .inr ⟨o, List.mem_singleton_self o, by rw [List.mem_singleton.mp hx]⟩
termination_by o.rank
decreasing_by exact rank_lt_of_mem_dependencies hd

theorem emitted_emissionOrder (roots : List Operation) : Emitted [] roots (emissionOrder roots) :=
  emitted_foldl .nil fun o _ => emitted_emit o

theorem ordered_emissionOrder (roots : List Operation) : Ordered (emissionOrder roots) :=
  (emitted_emissionOrder roots).ordered

/-- An emission order has exactly what its roots reach. -/
theorem mem_emissionOrder {roots : List Operation} {x : Operation} :
    x ∈ emissionOrder roots ↔ ∃ o ∈ roots, Reaches o x := by
  have emitted := emitted_emissionOrder roots
  constructor
  · intro hx
    exact (emitted.reached x hx).resolve_left List.not_mem_nil
  · rintro ⟨o, ho, reaches⟩
    exact emitted.ordered.mem_of_reaches (emitted.mem_root ho) reaches

end Argand.Operation
