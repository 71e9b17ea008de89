import Argand.Kernel.Basic
import Argand.Proofs.Catalog.Names
import Argand.Proofs.Expr.Parts
import Argand.Proofs.Kernel.Fragment
import Argand.Proofs.Outcome

/-!
# The two faces of an expression

An expression over declared names has a text for a shader (`compile`) and a program of its own (`lower`),
and the two mean the same : the text reads as a fragment in one way, and the fragment has the value of the
program at every list of arguments (`compile_faces`).

Both come from the term of the expression, which also has a fragment (`Term.fragment`). The text of a term
reads as its fragment and the fragment has its value if the term is legible (`Term.Legible`) : its variables
are at the first place of their names, none of them is hidden by a named constant, and its numbers can be
read back. The terms that expressions resolve to are legible (`Expr.Resolves.legible`).
-/

namespace Argand

/-! ## Parentheses -/

namespace Expr

mutual

/-- An expression without its parentheses. -/
def ungrouped : Expr → Expr
  | symbol name => symbol name
  | literal value => literal value
  | call operation operands => call operation (ungroupedOperands operands)
  | group inner => inner.ungrouped

/-- Operands without their parentheses. -/
def ungroupedOperands : List Expr → List Expr
  | [] => []
  | e :: es => e.ungrouped :: ungroupedOperands es

end

theorem length_ungroupedOperands : ∀ es : List Expr, (ungroupedOperands es).length = es.length
  | [] => rfl
  | _ :: es => congrArg (· + 1) (length_ungroupedOperands es)

/-- Parentheses have no part in the meaning of an expression. -/
theorem resolve_ungrouped (declared : List String) :
    ∀ e : Expr, e.ungrouped.resolve declared = e.resolve declared
  | symbol _ => rfl
  | literal _ => rfl
  | group inner => resolve_ungrouped declared inner
  | call name [a] => by
    simp only [ungrouped, ungroupedOperands, resolve, resolve_ungrouped declared a]
  | call name [a, b] => by
    simp only [ungrouped, ungroupedOperands, resolve, resolve_ungrouped declared a,
      resolve_ungrouped declared b]
  | call name [] => rfl
  | call name (_ :: _ :: _ :: es) => by
    simp only [ungrouped, ungroupedOperands, resolve, List.length_cons, length_ungroupedOperands]

theorem resolve_unary_eq_ok {declared : List String} {name : String} {a : Expr} {t : Term declared} :
    (call name [a]).resolve declared = .ok t ↔
      ∃ f x, Unary.ofName? name = some f ∧ a.resolve declared = .ok x ∧ .unary f x = t := by
  rw [resolve]
  cases Unary.ofName? name with
  | none => simp
  | some f => simp [map_eq_ok]

theorem resolve_binary_eq_ok {declared : List String} {name : String} {a b : Expr} {t : Term declared} :
    (call name [a, b]).resolve declared = .ok t ↔
      ∃ f x y, Binary.ofName? name = some f ∧ a.resolve declared = .ok x ∧
        b.resolve declared = .ok y ∧ .binary f x y = t := by
  rw [resolve]
  cases Binary.ofName? name with
  | none => simp
  | some f => simp [bind_eq_ok]

/-- `Resolves declared e t` : the term of `e` is `t`, by the rules for each kind of expression. -/
inductive Resolves (declared : List String) : Expr → Term declared → Prop
  | symbol {name : String} {t : Term declared} (named : resolveSymbol declared name = .ok t) :
    Resolves declared (symbol name) t
  | literal {value : Float} : Resolves declared (literal value) (.literal value)
  | group {inner : Expr} {t : Term declared} (inside : Resolves declared inner t) :
    Resolves declared (group inner) t
  | unary {f : Unary} {a : Expr} {x : Term declared} (operand : Resolves declared a x) :
    Resolves declared (call f.name [a]) (.unary f x)
  | binary {f : Binary} {a b : Expr} {x y : Term declared} (left : Resolves declared a x)
    (right : Resolves declared b y) : Resolves declared (call f.name [a, b]) (.binary f x y)

theorem resolves {declared : List String} :
    ∀ (e : Expr) {t : Term declared}, e.resolve declared = .ok t → Resolves declared e t
  | symbol _, _, h => .symbol h
  | literal _, _, h => by
    cases h
    exact .literal
  | group inner, _, h => .group (inner.resolves h)
  | call _ [a], _, h => by
    obtain ⟨f, x, hf, hx, rfl⟩ := resolve_unary_eq_ok.mp h
    obtain rfl := Unary.ofName?_eq_some.mp hf
    exact .unary (a.resolves hx)
  | call _ [a, b], _, h => by
    obtain ⟨f, x, y, hf, hx, hy, rfl⟩ := resolve_binary_eq_ok.mp h
    obtain rfl := Binary.ofName?_eq_some.mp hf
    exact .binary (a.resolves hx) (b.resolves hy)
  | call _ [], _, h => by
    cases h
  | call _ (_ :: _ :: _ :: _), _, h => by
    cases h

end Expr

/-! ## Fragments of terms -/

namespace Term

variable {declared : List String}

/-- The fragment that the text of a term reads as. -/
def fragment : Term declared → Fragment
  | .variable slot => .identifier (declared.get slot)
  | constant c => .vector c.value.re c.value.im
  | literal value => .vector value 0
  | unary f a => .call f.name [a.fragment]
  | binary f a b => .call f.name [a.fragment, b.fragment]

/-- The text of a term shows which variables and numbers it has. -/
def Legible : Term declared → Prop
  | .variable slot =>
    slot? declared (declared.get slot) = some slot ∧ Constant.ofName? (declared.get slot) = none
  | constant _ => True
  | literal value => readFloat? (Layout.literal.write value) = some value
  | unary _ a => a.Legible
  | binary _ a b => a.Legible ∧ b.Legible

end Term

theorem resolveSymbol_legible {declared : List String} {name : String} {t : Term declared}
    (h : resolveSymbol declared name = .ok t) : t.Legible := by
  unfold resolveSymbol at h
  split at h
  · cases h
    trivial
  · rename_i slot hconstant hslot
    cases h
    have hname : declared.get slot = name := by
      rw [slot?, List.finIdxOf?_eq_some_iff] at hslot
      exact hslot.1
    exact ⟨by rw [hname]; exact hslot, by rw [hname]; exact hconstant⟩
  · cases h

/-- An expression resolves to a legible term if its numbers can be read back. -/
theorem Expr.Resolves.legible {declared : List String} {e : Expr} {t : Term declared}
    (h : e.Resolves declared t)
    (hread : ∀ x ∈ e.literals, readFloat? (Layout.literal.write x) = some x) : t.Legible := by
  induction h with
  | symbol named => exact resolveSymbol_legible named
  | literal => exact hread _ List.mem_cons_self
  | group _ ih => exact ih hread
  | unary _ ih =>
    simp only [literals, operandLiterals, List.append_nil] at hread
    exact ih hread
  | binary _ _ left right =>
    simp only [literals, operandLiterals, List.append_nil, List.mem_append] at hread
    exact ⟨left fun v hv => hread v (.inl hv), right fun v hv => hread v (.inr hv)⟩

/-! ## The text of a term -/

theorem Unary.isIdentifier_name (f : Unary) : IsIdentifier f.name.toList := by
  cases f <;> exact ⟨_, _, rfl, by decide +kernel, List.all_eq_true.mp (by decide +kernel)⟩

theorem Binary.isIdentifier_name (f : Binary) : IsIdentifier f.name.toList := by
  cases f <;> exact ⟨_, _, rfl, by decide +kernel, List.all_eq_true.mp (by decide +kernel)⟩

theorem Constant.reads (c : Constant) : Reads c.literal.toList (.vector c.value.re c.value.im) := by
  cases c with
  | i => exact @Reads.vector "0.0" "1.0" _ _ (by decide +kernel) (by decide +kernel)
  | e => exact @Reads.vector "2.718281828459045" "0.0" _ _ (by decide +kernel) (by decide +kernel)
  | pi => exact @Reads.vector "3.141592653589793" "0.0" _ _ (by decide +kernel) (by decide +kernel)
  | phi => exact @Reads.vector "1.618033988749895" "0.0" _ _ (by decide +kernel) (by decide +kernel)

namespace Term

variable {declared : List String}

/-- The text of a legible term reads as its fragment. -/
theorem reads_write (hdeclared : ∀ name ∈ declared, IsIdentifier name.toList) :
    ∀ t : Term declared, t.Legible → Reads t.write t.fragment
  | .variable slot, _ => .identifier (hdeclared _ (List.get_mem declared slot))
  | constant c, _ => c.reads
  | literal value, h => by
    have zero : readFloat? "0.0" = some 0 := by decide +kernel
    have ending : ", 0.0)".toList = ", ".toList ++ "0.0".toList ++ [')'] := rfl
    show Reads ("vec2(".toList ++ (Layout.literal.write value).toList ++ ", 0.0)".toList) _
    rw [ending, ← List.append_assoc, ← List.append_assoc]
    exact .vector h zero
  | unary f a, h => .call f.isIdentifier_name (.one (reads_write hdeclared a h))
  | binary f a b, h => by
    have operands := ReadsOperands.more (reads_write hdeclared a h.1) (.one (reads_write hdeclared b h.2))
    show Reads ("c_".toList ++ f.name.toList ++ '(' :: a.write ++ ',' :: b.write ++ [')']) _
    rw [List.append_assoc _ _ (',' :: b.write), List.cons_append]
    exact .call f.isIdentifier_name operands

/-- A term reads no argument that a named constant hides. -/
theorem ofName?_of_mem_names : ∀ t : Term declared, t.Legible → ∀ name ∈ t.fragment.names,
    Constant.ofName? name = none
  | .variable slot, h, name, hname => by
    rw [List.mem_singleton.mp hname]
    exact h.2
  | unary f a, h, name, hname => by
    rw [fragment, Fragment.names, Fragment.operandNames, Fragment.operandNames, List.append_nil]
      at hname
    exact ofName?_of_mem_names a h name hname
  | binary f a b, h, name, hname => by
    rw [fragment, Fragment.names, Fragment.operandNames, Fragment.operandNames, Fragment.operandNames,
      List.append_nil] at hname
    rcases List.mem_append.mp hname with hname | hname
    · exact ofName?_of_mem_names a h.1 name hname
    · exact ofName?_of_mem_names b h.2 name hname

/-! ## The value of a term -/

section Value

variable {R : Type} [Add R] [Sub R] [Mul R] [Div R] [Neg R] [OfScientific R] [Elementary R]

/-- The fragment of a legible term has its value. -/
theorem eval?_fragment (args : List (Point R)) : ∀ t : Term declared, t.Legible →
    t.fragment.eval? declared args = t.eval? args
  | .variable slot, h => by
    have hslot : declared.idxOf? (declared.get slot) = some slot.val := by
      rw [List.idxOf?_eq_map_finIdxOf?_val, ← slot?, h.1, Option.map_some]
    rw [fragment, Fragment.eval?, hslot]
    rfl
  | constant c, _ => rfl
  | literal value, _ => rfl
  | unary f a, h => by
    have hlookup : Operation.lookup? f.name 1 = some (.unary f) :=
      Operation.lookup?_eq_some.mpr ⟨rfl, rfl⟩
    rw [fragment, Fragment.eval?, Fragment.evalOperands?, Fragment.evalOperands?,
      eval?_fragment args a h, eval?]
    cases a.eval? args with
    | none => rfl
    | some x => simp [hlookup, Operation.valueAt?]
  | binary f a b, h => by
    have hlookup : Operation.lookup? f.name 2 = some (.binary f) :=
      Operation.lookup?_eq_some.mpr ⟨rfl, rfl⟩
    rw [fragment, Fragment.eval?, Fragment.evalOperands?, Fragment.evalOperands?, Fragment.evalOperands?,
      eval?_fragment args a h.1, eval?_fragment args b h.2, eval?]
    cases a.eval? args with
    | none => rfl
    | some x =>
      cases b.eval? args with
      | none => rfl
      | some y => simp [hlookup, Operation.valueAt?]

/-- A term has a value at no fewer arguments than are declared. -/
theorem exists_eval?_eq_some {args : List (Point R)} (hargs : declared.length ≤ args.length) :
    ∀ t : Term declared, ∃ v, t.eval? args = some v
  | .variable slot => ⟨args[slot.val], List.getElem?_eq_getElem (by omega)⟩
  | constant c => ⟨_, rfl⟩
  | literal value => ⟨_, rfl⟩
  | unary f a => by
    obtain ⟨x, hx⟩ := exists_eval?_eq_some hargs a
    exact ⟨f.apply x, by rw [eval?, hx, Option.map_some]⟩
  | binary f a b => by
    obtain ⟨x, hx⟩ := exists_eval?_eq_some hargs a
    obtain ⟨y, hy⟩ := exists_eval?_eq_some hargs b
    exact ⟨f.apply x y, by rw [eval?, hx, hy]; rfl⟩

end Value

end Term

/-! ## The faces -/

theorem compile_eq_ok {e : Expr} {declared : List String} {text : String} :
    compile e declared = .ok text ↔
      ∃ t, e.resolve declared = .ok t ∧ String.ofList t.write = text :=
  map_eq_ok

theorem lower_eq_ok {e : Expr} {declared : List String} {p : Program} :
    lower e declared = .ok p ↔ ∃ t, e.resolve declared = .ok t ∧ ⟨"f", declared, t⟩ = p :=
  map_eq_ok

theorem resolve_constant (declared : List String) (c : Constant) :
    (Expr.symbol c.name).resolve declared = .ok (.constant c) := by
  cases c <;> rfl

section Faces

variable {R : Type} [Add R] [Sub R] [Mul R] [Div R] [Neg R] [OfScientific R] [Elementary R]

/-- If an expression has a text, it has a program, the text reads as one fragment, and the fragment has the
value of the program. Parentheses change neither the text nor the program, and a named constant hides a
declared name in both. Numbers are supposed to be read back from what they are written as. -/
theorem compile_faces {e : Expr} {declared : List String} {args : List (Point R)}
    (hdeclared : ∀ name ∈ declared, IsIdentifier name.toList)
    (hnan : ∀ x ∈ e.literals, x.isNaN = false)
    (hread : ∀ x ∈ e.literals, x.isNaN = false → readFloat? (Layout.literal.write x) = some x)
    (hargs : args.length = declared.length) :
    (∀ text, compile e declared = .ok text → ∃ p f v, lower e declared = .ok p ∧
      Reads text.toList f ∧ (∀ g, Reads text.toList g → g = f) ∧
      f.eval? declared args = some v ∧ p.eval? args = some v ∧
      ∀ name ∈ f.names, Constant.ofName? name = none) ∧
    (compile e.ungrouped declared = compile e declared ∧
      lower e.ungrouped declared = lower e declared) ∧
    ∀ c : Constant, compile (.symbol c.name) declared = .ok c.literal ∧
      ∃ p, lower (.symbol c.name) declared = .ok p ∧ p.eval? args = some (Term.embed c.value) := by
  refine ⟨?_, ⟨?_, ?_⟩, ?_⟩
  · intro text htext
    obtain ⟨t, ht, rfl⟩ := compile_eq_ok.mp htext
    have legible := (e.resolves ht).legible fun x hx => hread x hx (hnan x hx)
    have reads := t.reads_write hdeclared legible
    obtain ⟨v, hv⟩ := t.exists_eval?_eq_some (Nat.le_of_eq hargs.symm)
    rw [String.toList_ofList]
    refine ⟨⟨"f", declared, t⟩, t.fragment, v, lower_eq_ok.mpr ⟨t, ht, rfl⟩, reads, ?_, ?_, hv,
      t.ofName?_of_mem_names legible⟩
    · intro g hg
      exact hg.unique reads
    · rw [t.eval?_fragment args legible, hv]
  · rw [compile, compile, Expr.resolve_ungrouped]
  · rw [lower, lower, Program.ofExpr, Program.ofExpr, Expr.resolve_ungrouped]
  · intro c
    have resolved := resolve_constant declared c
    refine ⟨compile_eq_ok.mpr ⟨_, resolved, ?_⟩, ⟨_, lower_eq_ok.mpr ⟨_, resolved, rfl⟩, rfl⟩⟩
    exact String.ofList_toList

end Faces

/-- The faces of `(z^2.5)*e` over declared names of which the constant hides one. -/
theorem compile_faces_hidden :
    let e := Expr.call "multiply" [.group (.call "pow" [.symbol "z", .literal 2.5]), .symbol "e"]
    ∃ text p f v, compile e ["z", "e"] = .ok text ∧ lower e ["z", "e"] = .ok p ∧
      Reads text.toList f ∧ (∀ g, Reads text.toList g → g = f) ∧
      f.eval? ["z", "e"] [⟨1, 2⟩, ⟨3, 4⟩] = some v ∧ p.eval? [⟨1, 2⟩, ⟨3, 4⟩] = some (v : Point Float) := by
  intro e
  have hdeclared : ∀ name ∈ ["z", "e"], IsIdentifier name.toList := by
    intro name hname
    simp only [List.mem_cons, List.not_mem_nil, or_false] at hname
    rcases hname with rfl | rfl <;> exact ⟨_, _, rfl, by decide +kernel, nofun⟩
  have hnan : ∀ x ∈ e.literals, x.isNaN = false := by decide +kernel
  have hread : ∀ x ∈ e.literals, x.isNaN = false → readFloat? (Layout.literal.write x) = some x := by
    decide +kernel
  have faces := @compile_faces Float _ _ _ _ _ _ _ e ["z", "e"] [⟨1, 2⟩, ⟨3, 4⟩] hdeclared hnan hread rfl
  obtain ⟨p, f, v, hp, hf, unique, hv, hpv, -⟩ := faces.1 _ rfl
  exact ⟨_, p, f, v, rfl, hp, hf, unique, hv, hpv⟩

end Argand
