import Argand.Proofs.Catalog.Order
import Argand.Proofs.Decimal.Layout
import Argand.Proofs.Kernel.Faces
import Mathlib.Data.List.Basic

/-!
# Calls in texts

A call of an operation is written as its function, `c_` and its name, and an opening parenthesis. A text
shows in this way which operations it calls (`Mentions`), although names begin and end like one another :
what is looked for ends at a parenthesis and has no other one in it (`infix_opening`), and no function is at
the end of another one (`Operation.function_suffix`).

A body mentions exactly what it calls (`Shader.Body.mentions_write`). A term mentions what it calls
(`Term.mentions_of_mem_operations`), and nothing else unless a declared name looks like a call
(`Term.mem_operations_of_mentions`).
-/

namespace Argand

/-! ## Parts of texts -/

section Parts

variable {α : Type} {s : α} {part run xs ys : List α}

/-- What has no separator in it is on one side of any. -/
theorem infix_separated (h : s ∉ part) :
    part <:+: xs ++ s :: ys ↔ part <:+: xs ∨ part <:+: ys := by
  have starts : ∀ {front : List α}, front ≠ [] → front <+: s :: ys → s ∈ front := by
    rintro front nonempty ⟨back, same⟩
    obtain ⟨first, front, rfl⟩ := List.exists_cons_of_ne_nil nonempty
    rw [(List.cons.inj same).1]
    exact List.mem_cons_self
  constructor
  · intro there
    rcases List.infix_append_iff_ne_nil.mp there with left | right | ⟨l, r, -, hr, rfl, -, across⟩
    · exact .inl left
    · rcases List.infix_cons_iff.mp right with front | behind
      · by_cases nonempty : part = []
        · exact .inl (nonempty ▸ List.nil_infix)
        · exact (h (starts nonempty front)).elim
      · exact .inr behind
    · exact (h (List.mem_append_right l (starts hr across))).elim
  · rintro (left | right)
    · exact left.trans List.infix_append_left
    · exact (right.trans (List.suffix_cons s ys).isInfix).trans List.infix_append_right

/-- What ends with an opening that it has nowhere else ends at the first one, or is behind it. -/
theorem infix_opening (hrun : s ∉ run) (hxs : s ∉ xs) :
    run ++ [s] <:+: xs ++ s :: ys ↔ run <:+ xs ∨ run ++ [s] <:+: ys := by
  constructor
  · intro there
    rcases List.infix_append_iff_ne_nil.mp there with left | right | ⟨l, r, -, hr, same, hl, across⟩
    · exact (hxs (left.subset (List.mem_append_right run (List.mem_singleton_self s)))).elim
    · rcases List.infix_cons_iff.mp right with ⟨back, same⟩ | behind
      · cases run with
        | nil => exact .inl (List.nil_suffix)
        | cons first run => exact (hrun ((List.cons.inj same).1 ▸ List.mem_cons_self)).elim
      · exact .inr behind
    · obtain ⟨first, r, rfl⟩ := List.exists_cons_of_ne_nil hr
      obtain ⟨back, across⟩ := across
      obtain ⟨rfl, -⟩ := List.cons.inj across
      obtain ⟨rfl, -⟩ := (List.append_cons_inj_of_notMem hrun List.not_mem_nil).mp same
      exact .inl hl
  · rintro (⟨front, rfl⟩ | behind)
    · exact ⟨front, ys, by simp⟩
    · exact (behind.trans (List.suffix_cons s ys).isInfix).trans List.infix_append_right

end Parts

/-! ## Functions -/

namespace Operation

/-- The function that an operation is in a shader. -/
def function (o : Operation) : List Char :=
  "c_".toList ++ o.name.toList

theorem isIdentifier_name (o : Operation) : IsIdentifier o.name.toList := by
  cases o with
  | unary f => exact f.isIdentifier_name
  | binary f => exact f.isIdentifier_name

theorem function_continues (o : Operation) : ∀ c ∈ o.function, continuesName c = true :=
  o.isIdentifier_name.called

theorem opening_not_mem_function (o : Operation) : '(' ∉ o.function := by
  intro hc
  have opening : continuesName '(' = false := by decide +kernel
  rw [o.function_continues _ hc] at opening
  cases opening

/-- No function is at the end of another one. -/
theorem function_suffix {o d : Operation} : o.function <:+ d.function ↔ o = d := by
  have table : ∀ o ∈ all, ∀ d ∈ all, o.function <:+ d.function ↔ o = d := by decide +kernel
  exact table o o.mem_all d d.mem_all

end Operation

/-! ## Mentions -/

/-- A text has a call of an operation. -/
def Mentions (text : List Char) (o : Operation) : Prop :=
  o.function ++ ['('] <:+: text

/-- A character of a shader that is neither in a name nor an opening parenthesis. -/
def separates (c : Char) : Bool :=
  [' ', '.', ',', ';', ')', '+', '-', '*', '/'].contains c

namespace Mentions

variable {o d : Operation} {c s : Char} {xs ys : List Char}

/-- A call does not go across a separator. -/
@[simp] theorem separated (h : separates s = true) :
    Mentions (xs ++ s :: ys) o ↔ Mentions xs o ∨ Mentions ys o := by
  have table : [' ', '.', ',', ';', ')', '+', '-', '*', '/'].all (!continuesName ·) = true := by
    decide +kernel
  refine infix_separated fun hs => ?_
  rcases List.mem_append.mp hs with hs | hs
  · have := List.all_eq_true.mp table s (List.contains_iff_mem.mp h)
    rw [o.function_continues s hs] at this
    cases this
  · rw [List.mem_singleton.mp hs] at h
    cases h

/-- A call has an opening parenthesis. -/
theorem not_of_not_mem (h : '(' ∉ xs) : ¬Mentions xs o :=
  fun there => h (there.subset (List.mem_append_right _ (List.mem_singleton_self '(')))

@[simp] theorem not_nil : ¬Mentions [] o :=
  not_of_not_mem List.not_mem_nil

/-- A call begins with a `c`. -/
@[simp] theorem skip (h : c ≠ 'c') : Mentions (c :: xs) o ↔ Mentions xs o := by
  refine List.infix_cons_iff.trans (or_iff_right ?_)
  rintro ⟨back, same⟩
  exact h (List.cons.inj same).1.symm

/-- A call goes on with an underscore. -/
@[simp] theorem skip_pair (h : c ≠ '_') : Mentions ('c' :: c :: xs) o ↔ Mentions (c :: xs) o := by
  refine List.infix_cons_iff.trans (or_iff_right ?_)
  rintro ⟨back, same⟩
  exact h (List.cons.inj (List.cons.inj same).2).1.symm

/-- A call mentions its operation and what its operands mention. -/
theorem called : Mentions (d.function ++ '(' :: xs) o ↔ o = d ∨ Mentions xs o := by
  rw [← Operation.function_suffix]
  exact infix_opening o.opening_not_mem_function d.opening_not_mem_function

end Mentions

/-! ## Bodies -/

namespace Shader

variable {o : Operation}

@[simp] theorem Variable.not_mentions (v : Variable) : ¬Mentions v.write.toList o := by
  refine Mentions.not_of_not_mem ?_
  cases v <;> decide

@[simp] theorem not_mentions_writeNumber (units places : Nat) (bare : Bool) :
    ¬Mentions (writeNumber units places bare).toList o := by
  have digits : ∀ n, '(' ∉ Nat.toDigits 10 n := by
    intro n hc
    have : isDigit '(' = true := isDigit_of_mem_toDigits hc
    exact absurd this (by decide)
  refine Mentions.not_of_not_mem ?_
  cases bare <;> simp [writeNumber, digits]

@[simp] theorem Scalar.not_mentions (s : Scalar) : ¬Mentions s.write.toList o := by
  induction s with
  | number units places bare => exact not_mentions_writeNumber units places bare
  | x v | y v | length v => simp [Scalar.write, separates]
  | negate s hs => simp [Scalar.write, hs]
  | operate f spaced s t hs ht =>
    cases f <;> cases spaced <;>
      simp [Scalar.write, RealOperator.write, writeSpaced, separates, hs, ht]
  | apply f s hs => cases f <;> simp [Scalar.write, Function.write, separates, hs]
  | atan s t hs ht => simp [Scalar.write, separates, hs, ht]
  | dot v w => simp [Scalar.write, separates]

/-- A vector expression mentions what it calls. -/
@[simp] theorem Vec.mentions_write (v : Vec) : Mentions v.write.toList o ↔ o ∈ v.calls := by
  induction v with
  | named v => simp [Vec.write, Vec.calls]
  | pair x y => simp [Vec.write, Vec.calls, separates]
  | negate v hv => simp [Vec.write, Vec.calls, hv]
  | plus v w hv hw | minus v w hv hw => simp [Vec.write, Vec.calls, separates, hv, hw]
  | scale spaced s v hv | quotient spaced v s hv =>
    cases spaced <;> simp [Vec.write, Vec.calls, writeSpaced, separates, hv]
  | paren v hv => simp [Vec.write, Vec.calls, separates, hv]
  | unary f v hv =>
    have text : (unary f v).write.toList =
        (Operation.unary f).function ++ '(' :: (v.write.toList ++ [')']) := by
      simp [Vec.write, Operation.function, Operation.name]
    rw [text, Mentions.called, Mentions.separated rfl, hv, Vec.calls, List.mem_cons]
    simp
  | binary f v w hv hw =>
    have text : (binary f v w).write.toList =
        (Operation.binary f).function ++
          '(' :: (v.write.toList ++ ',' :: ' ' :: (w.write.toList ++ [')'])) := by
      simp [Vec.write, Operation.function, Operation.name]
    rw [text, Mentions.called, Vec.calls, List.cons_append, List.mem_cons, List.mem_append]
    simp [separates, hv, hw]

/-- A body mentions what it calls. -/
theorem Body.mentions_write (body : Body) : Mentions body.write.toList o ↔ o ∈ body.calls := by
  obtain ⟨locals, result⟩ := body
  induction locals with
  | nil => simp [Body.write, Body.calls, separates]
  | cons l locals ih =>
    have text : (Body.mk (l :: locals) result).write.toList =
        ("vec2 " ++ l.1.write ++ " = " ++ l.2.write ++ "; ").toList ++
          (Body.mk locals result).write.toList := by
      simp [Body.write]
    have calls : (Body.mk (l :: locals) result).calls = l.2.calls ++ (Body.mk locals result).calls :=
      List.append_assoc _ _ _
    rw [text, calls, List.mem_append, ← ih]
    simp [separates]

end Shader

/-- The body of an operation mentions what it calls. -/
theorem Operation.mentions_body (o d : Operation) : Mentions o.body.write.toList d ↔ d ∈ o.body.calls :=
  o.body.mentions_write

/-! ## Terms -/

@[simp] theorem Constant.not_mentions (c : Constant) (o : Operation) : ¬Mentions c.literal.toList o := by
  cases c <;> simp [literal]

@[simp] theorem not_mentions_write_literal (value : Float) (o : Operation) :
    ¬Mentions (Layout.literal.write value).toList o := by
  refine Mentions.not_of_not_mem fun hc => ?_
  have : inNumeral '(' = true := Layout.inNumeral_write_literal value _ hc
  exact absurd this (by decide)

namespace Term

variable {declared : List String} {o : Operation}

theorem not_mentions_literal (value : Float) : ¬Mentions (Term.literal value : Term declared).write o := by
  show ¬Mentions ("vec2(".toList ++ (Layout.literal.write value).toList ++ ", 0.0)".toList) o
  simp [separates]

theorem mentions_write_unary (f : Unary) (a : Term declared) :
    Mentions (unary f a).write o ↔ o = .unary f ∨ Mentions a.write o := by
  show Mentions ((Operation.unary f).function ++ '(' :: a.write ++ [')']) o ↔ _
  rw [Mentions.separated rfl, or_iff_left Mentions.not_nil, Mentions.called]

theorem mentions_write_binary (f : Binary) (a b : Term declared) :
    Mentions (binary f a b).write o ↔ o = .binary f ∨ Mentions a.write o ∨ Mentions b.write o := by
  show Mentions ((Operation.binary f).function ++ '(' :: a.write ++ ',' :: b.write ++ [')']) o ↔ _
  rw [Mentions.separated rfl, or_iff_left Mentions.not_nil, Mentions.separated rfl, Mentions.called,
    or_assoc]

/-- A term mentions its operations. -/
theorem mentions_of_mem_operations : ∀ t : Term declared, o ∈ t.operations → Mentions t.write o
  | unary f a, h => by
    rw [mentions_write_unary]
    exact (List.mem_cons.mp h).imp id (mentions_of_mem_operations a)
  | binary f a b, h => by
    rw [mentions_write_binary]
    refine (List.mem_cons.mp h).imp id fun h => ?_
    exact (List.mem_append.mp h).imp (mentions_of_mem_operations a) (mentions_of_mem_operations b)

/-- A term mentions nothing but its operations, unless a declared name looks like a call. -/
theorem mem_operations_of_mentions (plain : ∀ name ∈ declared, ¬Mentions name.toList o) :
    ∀ t : Term declared, Mentions t.write o → o ∈ t.operations
  | .variable slot, h => (plain _ (List.get_mem declared slot) h).elim
  | constant c, h => (c.not_mentions o h).elim
  | literal value, h => (not_mentions_literal value h).elim
  | unary f a, h => by
    rw [mentions_write_unary] at h
    exact List.mem_cons.mpr (h.imp id (mem_operations_of_mentions plain a))
  | binary f a b, h => by
    rw [mentions_write_binary] at h
    refine List.mem_cons.mpr (h.imp id fun h => ?_)
    exact List.mem_append.mpr
      (h.imp (mem_operations_of_mentions plain a) (mem_operations_of_mentions plain b))

end Term

end Argand
