import Argand.Proofs.Kernel.Mentions
import Mathlib.Data.List.Forall2
import Mathlib.Data.List.Nodup

/-!
# Closed kernels

The source of a kernel is the definitions of some operations and then of its programs. `Kernel.Closed` says
that it can be compiled and has nothing in excess : whatever a body calls is defined once, above the body,
and whatever operation is defined is reached from a call in one of the expressions that the kernel is of.
Kernels that are built from functions not named like operations are closed (`Kernel.build_closed`).

What is called is read off the bodies as data. Their texts tell the same : they mention what is called, and
nothing else as long as no parameter looks like a call.
-/

namespace Argand

/-! ## Calls of an expression -/

namespace Expr

theorem mem_calls {o d : Operation} {operands : List Expr} (h : operands.length = d.arity) :
    (o.name, o.arity) ∈ (call d.name operands).calls ↔
      o = d ∨ (o.name, o.arity) ∈ operandCalls operands := by
  rw [calls, List.mem_cons, h]
  refine or_congr ⟨fun same => ?_, fun same => same ▸ rfl⟩ Iff.rfl
  exact Operation.name_injective (Prod.mk.inj same).1

/-- The operations of a term are those that its expression calls. -/
theorem Resolves.mem_operations {declared : List String} {o : Operation} {e : Expr} {t : Term declared}
    (h : e.Resolves declared t) : o ∈ t.operations ↔ (o.name, o.arity) ∈ e.calls := by
  induction h with
  | symbol named =>
    unfold resolveSymbol at named
    split at named <;> cases named <;> exact iff_of_false List.not_mem_nil List.not_mem_nil
  | literal => exact iff_of_false List.not_mem_nil List.not_mem_nil
  | group _ ih => exact ih
  | @unary f _ _ _ ih =>
    refine Iff.trans ?_ (mem_calls (d := .unary f) rfl).symm
    rw [Term.operations, List.mem_cons, ih, operandCalls, operandCalls, List.append_nil]
  | @binary f _ _ _ _ _ _ left right =>
    refine Iff.trans ?_ (mem_calls (d := .binary f) rfl).symm
    rw [Term.operations, List.cons_append, List.mem_cons, List.mem_append, left, right, operandCalls,
      operandCalls, operandCalls, List.append_nil, List.mem_append]

end Expr

/-! ## Definitions -/

namespace Definition

variable {o d : Operation} {p : Program}

/-- What a definition computes its value by. -/
def body : Definition → List Char
  | operation o => o.body.write.toList
  | program p => p.term.write

/-- Whether a definition begins as that of the function of an operation. -/
def defines (d : Definition) (o : Operation) : Bool :=
  ("vec2 ".toList ++ o.function ++ ['(']).isPrefixOf d.text.toList

theorem mentions_of_mem_calls (d : Definition) (h : o ∈ d.calls) : Mentions d.body o := by
  cases d with
  | operation d => exact (d.mentions_body o).mpr h
  | program p => exact p.term.mentions_of_mem_operations h

theorem toList_definition_operation (o : Operation) :
    ∃ rest, o.definition.toList = "vec2 ".toList ++ (o.function ++ '(' :: rest) := by
  cases o <;> exact ⟨_, by simp [Operation.definition, Operation.function]; rfl⟩

theorem toList_definition_program (p : Program) :
    ∃ rest, p.definition.toList = "vec2 ".toList ++ (p.name.toList ++ '(' :: rest) :=
  ⟨_, by simp [Program.definition]; rfl⟩

@[simp] theorem defines_operation : (operation d).defines o = true ↔ o = d := by
  obtain ⟨rest, text⟩ := toList_definition_operation d
  rw [defines, List.isPrefixOf_iff_prefix, Definition.text, text, List.append_assoc,
    List.prefix_append_right_inj]
  constructor
  · rintro ⟨back, same⟩
    rw [List.append_assoc] at same
    obtain ⟨functions, -⟩ :=
      span_unique o.function_continues d.function_continues opening_ends opening_ends same
    exact Operation.function_suffix.mp (functions ▸ List.suffix_rfl)
  · rintro rfl
    exact ⟨rest, by rw [List.append_assoc]; rfl⟩

/-- A program is not taken for an operation if its name has no `c_`. -/
theorem not_defines_program (h : ¬"c_".toList <:+: p.name.toList) : (program p).defines o = false := by
  obtain ⟨rest, text⟩ := toList_definition_program p
  rw [← Bool.not_eq_true, defines, List.isPrefixOf_iff_prefix, Definition.text, text, List.append_assoc,
    List.prefix_append_right_inj]
  rintro ⟨back, same⟩
  have same : 'c' :: '_' :: (o.name.toList ++ ['('] ++ back) = p.name.toList ++ '(' :: rest := same
  match hname : p.name.toList with
  | [] => simp [hname] at same
  | [x] => simp [hname] at same
  | x :: y :: more =>
    rw [hname] at same h
    obtain ⟨hx, same⟩ := List.cons.inj same
    obtain ⟨hy, -⟩ := List.cons.inj same
    exact h ⟨[], more, by rw [← hx, ← hy]; rfl⟩

end Definition

/-! ## Kernels -/

/-- A program is that of a function. -/
def Function.Yields (f : Function) (p : Program) : Prop :=
  Program.ofExpr f.name f.params f.value = .ok p

theorem Function.yields_iff {f : Function} {p : Program} :
    f.Yields p ↔ ∃ t, f.value.resolve f.params = .ok t ∧ ⟨f.name, f.params, t⟩ = p :=
  map_eq_ok

namespace Kernel

/-- A kernel of functions defines what it calls, before it calls it, and nothing else. -/
structure Closed (functions : List Function) (k : Kernel) : Prop where
  /-- The programs are those of the functions, in their order, and call the operations that the
  expressions call. -/
  programs : List.Forall₂ (fun f p => f.Yields p ∧
    ∀ o, o ∈ p.term.operations ↔ (o.name, o.arity) ∈ f.value.calls) functions k.programs
  /-- The source is definitions of operations and then of the programs, a line each. -/
  source : k.source = String.join (k.operations.map fun o => o.definition ++ "\n") ++
    String.join (k.programs.map fun p => p.definition ++ "\n")
  /-- A body mentions what it calls. -/
  mentions : ∀ d ∈ k.definitions, ∀ o ∈ d.calls, Mentions d.body o
  /-- A body mentions nothing else, unless a parameter does. -/
  mentioned : ∀ d ∈ k.definitions, ∀ o, (∀ f ∈ functions, ∀ name ∈ f.params, ¬Mentions name.toList o) →
    Mentions d.body o → o ∈ d.calls
  /-- What a body calls is defined once, and above it. -/
  defined : ∀ before d after, k.definitions = before ++ d :: after → ∀ o ∈ d.calls,
    before.countP (·.defines o) = 1 ∧ ∀ x ∈ d :: after, x.defines o = false
  /-- What is defined is reached from a call in an expression. -/
  needed : ∀ o, (∃ d ∈ k.definitions, d.defines o = true) →
    ∃ f ∈ functions, ∃ root : Operation, (root.name, root.arity) ∈ f.value.calls ∧ root.Reaches o

/-! ## Building -/

theorem exists_function {functions : List Function} {programs : List Program}
    (h : List.Forall₂ Function.Yields functions programs) :
    ∀ p ∈ programs, ∃ f ∈ functions, f.Yields p := by
  induction h with
  | nil => exact fun p hp => (List.not_mem_nil hp).elim
  | cons hp _ ih =>
    refine List.forall_mem_cons.mpr ⟨⟨_, List.mem_cons_self, hp⟩, fun q hq => ?_⟩
    obtain ⟨f, hf, yields⟩ := ih q hq
    exact ⟨f, List.mem_cons_of_mem _ hf, yields⟩

/-- The operations of a kernel are those that its programs reach, in an order of definition. -/
theorem operations_of_build {functions : List Function} {k : Kernel} (h : build functions = .ok k) :
    List.Forall₂ Function.Yields functions k.programs ∧ Operation.Ordered k.operations ∧
      ∀ o, o ∈ k.operations ↔ ∃ p ∈ k.programs, ∃ root ∈ p.term.operations, root.Reaches o := by
  obtain ⟨programs, hprograms, built⟩ := bind_eq_ok.mp h
  cases built
  refine ⟨mapM_eq_ok.mp hprograms, Operation.ordered_emissionOrder _, fun o => ?_⟩
  have used : ∀ root, root ∈ Operation.all.filter ((programs.flatMap (·.term.operations)).contains ·) ↔
      ∃ p ∈ programs, root ∈ p.term.operations := by
    intro root
    rw [List.mem_filter, List.contains_iff_mem, List.mem_flatMap]
    exact and_iff_right root.mem_all
  rw [Operation.mem_emissionOrder]
  constructor
  · rintro ⟨root, hroot, reaches⟩
    obtain ⟨p, hp, hroot⟩ := (used root).mp hroot
    exact ⟨p, hp, root, hroot, reaches⟩
  · rintro ⟨p, hp, root, hroot, reaches⟩
    exact ⟨root, (used root).mpr ⟨p, hp, hroot⟩, reaches⟩

variable {k : Kernel} {o : Operation}

theorem countP_definitions (names : ∀ p ∈ k.programs, ¬"c_".toList <:+: p.name.toList) :
    k.definitions.countP (·.defines o) = k.operations.count o := by
  have operations : ((·.defines o) ∘ Definition.operation) = (· == o) := by
    funext d
    rw [Bool.eq_iff_iff, Function.comp_apply, Definition.defines_operation, beq_iff_eq, eq_comm]
  have programs : k.programs.countP ((·.defines o) ∘ Definition.program) = 0 := by
    refine List.countP_eq_zero.mpr fun p hp => ?_
    rw [Function.comp_apply, Definition.not_defines_program (names p hp)]
    exact Bool.false_ne_true
  rw [definitions, List.countP_append, List.countP_map, List.countP_map, operations, programs,
    List.count_eq_countP, Nat.add_zero]

/-- In an order of definition that has what the programs call, what is called is above the call. -/
theorem mem_before {before after : List Definition} {d : Definition}
    (ordered : Operation.Ordered k.operations)
    (complete : ∀ p ∈ k.programs, p.term.operations ⊆ k.operations)
    (split : k.definitions = before ++ d :: after) (call : o ∈ d.calls) :
    Definition.operation o ∈ before := by
  have of_program : d ∈ k.programs.map Definition.program →
      Definition.operation o ∈ k.operations.map Definition.operation := by
    intro hd
    obtain ⟨p, hp, rfl⟩ := List.mem_map.mp hd
    exact List.mem_map_of_mem (complete p hp call)
  rcases List.append_eq_append_iff.mp split with ⟨programs, rfl, hd⟩ | ⟨operations, split, hd⟩
  · refine List.mem_append_left _ (of_program ?_)
    rw [hd]
    exact List.mem_append_right _ List.mem_cons_self
  · cases operations with
    | nil =>
      rw [List.append_nil] at split
      rw [← split]
      refine of_program ?_
      rw [← List.nil_append (List.map _ _), ← hd]
      exact List.mem_cons_self
    | cons x operations =>
      obtain ⟨rfl, -⟩ := List.cons.inj hd
      obtain ⟨front, back, order, rfl, hback⟩ := List.map_eq_append_iff.mp split
      obtain ⟨x, back, rfl, rfl, -⟩ := List.map_eq_cons_iff.mp hback
      exact List.mem_map_of_mem (ordered.mem_of_calls order call)

/-- What is called is defined once, above the call. -/
theorem defined_above {before after : List Definition} {d : Definition}
    (names : ∀ p ∈ k.programs, ¬"c_".toList <:+: p.name.toList) (ordered : Operation.Ordered k.operations)
    (complete : ∀ p ∈ k.programs, p.term.operations ⊆ k.operations)
    (split : k.definitions = before ++ d :: after) (call : o ∈ d.calls) :
    before.countP (·.defines o) = 1 ∧ ∀ x ∈ d :: after, x.defines o = false := by
  have one : k.operations.count o ≤ 1 := List.nodup_iff_count_le_one.mp ordered.nodup o
  have defined := mem_before ordered complete split call
  have above : 0 < before.countP (·.defines o) :=
    List.countP_pos_iff.mpr ⟨_, defined, Definition.defines_operation.mpr rfl⟩
  rw [← countP_definitions names, split, List.countP_append] at one
  refine ⟨by omega, fun x hx => ?_⟩
  have below : (d :: after).countP (·.defines o) = 0 := by omega
  exact Bool.eq_false_iff.mpr (List.countP_eq_zero.mp below x hx)

theorem mem_of_defines {d : Definition} (names : ∀ p ∈ k.programs, ¬"c_".toList <:+: p.name.toList)
    (hd : d ∈ k.definitions) (defines : d.defines o = true) : o ∈ k.operations := by
  rw [← List.count_pos_iff, ← countP_definitions names]
  exact List.countP_pos_iff.mpr ⟨d, hd, defines⟩

theorem source_eq (k : Kernel) : k.source = String.join (k.operations.map fun o => o.definition ++ "\n") ++
    String.join (k.programs.map fun p => p.definition ++ "\n") := by
  rw [← String.toList_inj]
  simp [source, definitions, Definition.text, Function.comp_def]

/-- A kernel of functions that are not named like operations is closed. -/
theorem build_closed {functions : List Function} (built : build functions = .ok k)
    (names : ∀ f ∈ functions, ¬"c_".toList <:+: f.name.toList) : k.Closed functions := by
  obtain ⟨programs, ordered, reached⟩ := operations_of_build built
  have complete : ∀ p ∈ k.programs, p.term.operations ⊆ k.operations := fun p hp root hroot =>
    (reached root).mpr ⟨p, hp, root, hroot, .refl⟩
  have names : ∀ p ∈ k.programs, ¬"c_".toList <:+: p.name.toList := by
    intro p hp
    obtain ⟨f, hf, yields⟩ := exists_function programs p hp
    obtain ⟨t, -, rfl⟩ := Function.yields_iff.mp yields
    exact names f hf
  refine ⟨?_, source_eq k, fun d _ o => d.mentions_of_mem_calls, ?_, ?_, ?_⟩
  · refine programs.imp fun f p yields => ⟨yields, fun o => ?_⟩
    obtain ⟨t, ht, rfl⟩ := Function.yields_iff.mp yields
    exact (f.value.resolves ht).mem_operations
  · intro d hd o plain there
    cases d with
    | operation d => exact (d.mentions_body o).mp there
    | program p =>
      have hp : p ∈ k.programs := by simpa [definitions] using hd
      obtain ⟨f, hf, yields⟩ := exists_function programs p hp
      obtain ⟨t, -, rfl⟩ := Function.yields_iff.mp yields
      exact t.mem_operations_of_mentions (plain f hf) there
  · exact fun before d after split o call => defined_above names ordered complete split call
  · rintro o ⟨d, hd, defines⟩
    obtain ⟨p, hp, root, hroot, reaches⟩ := (reached o).mp (mem_of_defines names hd defines)
    obtain ⟨f, hf, yields⟩ := exists_function programs p hp
    obtain ⟨t, ht, rfl⟩ := Function.yields_iff.mp yields
    exact ⟨f, hf, root, (f.value.resolves ht).mem_operations.mp hroot, reaches⟩

/-- A kernel of a function that calls three operations, which call six others in turn. -/
theorem build_closed_trigonometric :
    let functions : List Function := [⟨"f", ["z"], .call "multiply" [.call "csc" [.symbol "z"],
      .group (.call "tanh" [.symbol "z"])]⟩]
    ∃ k, build functions = .ok k ∧ k.Closed functions := by
  intro functions
  have names : ∀ f ∈ functions, ¬"c_".toList <:+: f.name.toList := by decide
  exact ⟨⟨_, [⟨"f", ["z"], .binary .multiply (.unary .csc (.variable 0)) (.unary .tanh (.variable 0))⟩]⟩, rfl,
    build_closed rfl names⟩

end Kernel

end Argand
