import Argand.Kernel.Term
import Argand.Proofs.Decimal.Numeral
import Argand.Proofs.Expr.Scanning

/-!
# The expressions of a shader

What terms are written as is a fragment of the expressions of the shading language : identifiers,
vectors of two numbers, and calls of functions named `c_` and an identifier,

    E ::= identifier | 'vec2(' number ', ' number ')' | 'c_' name '(' E (',' E)* ')'

`Reads cs f` says that the text `cs` reads as the fragment `f`. The relation knows nothing of terms, of
declared names or of the catalog; a number is whatever `readFloat?` reads.

A text has no more than one reading (`Reads.unique`). Commas occur inside vectors and between operands, and
an identifier can begin like a vector or a call, so this is proved of texts that go on with a comma, a
closing parenthesis or nothing (`Stops`) : two readings at the same place take the same characters
(`Reads.apart`).

A fragment has a value at arguments for declared names (`Fragment.eval?`), where an identifier is the
argument at the first place of its name and a call is the operation of the catalog with its name and its
number of operands.
-/

namespace Argand

/-- An expression of a shader. -/
inductive Fragment where
  | identifier (name : String)
  | vector (x y : Float)
  | call (name : String) (operands : List Fragment)

/-! ## Readings -/

mutual

/-- A text reads as a fragment. -/
inductive Reads : List Char → Fragment → Prop where
  | identifier {name : String} (h : IsIdentifier name.toList) :
    Reads name.toList (.identifier name)
  | vector {s t : String} {x y : Float} (hx : readFloat? s = some x) (hy : readFloat? t = some y) :
    Reads ("vec2(".toList ++ s.toList ++ ", ".toList ++ t.toList ++ [')']) (.vector x y)
  | call {name : String} {cs : List Char} {fs : List Fragment} (h : IsIdentifier name.toList)
    (operands : ReadsOperands cs fs) :
    Reads ("c_".toList ++ name.toList ++ '(' :: cs ++ [')']) (.call name fs)

/-- A text reads as one or more fragments with commas between them. -/
inductive ReadsOperands : List Char → List Fragment → Prop where
  | one {cs : List Char} {f : Fragment} (h : Reads cs f) : ReadsOperands cs [f]
  | more {cs ds : List Char} {f : Fragment} {fs : List Fragment} (h : Reads cs f)
    (others : ReadsOperands ds fs) : ReadsOperands (cs ++ ',' :: ds) (f :: fs)

end

theorem opening_ends {cs : List Char} : Ends continuesName ('(' :: cs) := by
  show continuesName '(' = false
  decide +kernel

theorem toList_vec2 : "vec2(".toList = "vec2".toList ++ ['('] :=
  rfl

theorem toList_separator : ", ".toList = [',', ' '] :=
  rfl

theorem vec2_continues : ∀ c ∈ "vec2".toList, continuesName c = true :=
  List.all_eq_true.mp (by decide +kernel)

/-- A name is not followed by an opening parenthesis and by what stops a fragment. -/
theorem IsIdentifier.not_called {cs ds rest rest' : List Char} (hcs : IsIdentifier cs)
    (hds : ∀ c ∈ ds, continuesName c = true) (stops : Stops rest)
    (same : cs ++ rest = ds ++ '(' :: rest') : False := by
  obtain ⟨-, h⟩ := span_unique hcs.continues hds stops.ends_name opening_ends same
  rw [h] at stops
  rcases stops with h | h <;> cases h

theorem IsIdentifier.called {name : String} (h : IsIdentifier name.toList) :
    ∀ c ∈ "c_".toList ++ name.toList, continuesName c = true := by
  intro c hc
  rcases List.mem_append.mp hc with hc | hc
  · have : "c_".toList.all continuesName = true := by decide +kernel
    exact List.all_eq_true.mp this c hc
  · exact h.continues c hc

/-- A number ends where a comma or a closing parenthesis follows. -/
theorem number_apart {s t : String} {x y : Float} {rest rest' : List Char} (hx : readFloat? s = some x)
    (hy : readFloat? t = some y) (stops : Stops rest) (stops' : Stops rest')
    (same : s.toList ++ rest = t.toList ++ rest') : x = y ∧ rest = rest' := by
  obtain ⟨h, hrest⟩ := span_unique (inNumeral_of_readFloat? hx) (inNumeral_of_readFloat? hy)
    (stops.ends rfl rfl) (stops'.ends rfl rfl) same
  rw [String.toList_inj.mp h, hy] at hx
  exact ⟨(Option.some.inj hx).symm, hrest⟩

mutual

/-- Two fragments that begin at the same place of a text are equal and end at the same place. -/
theorem Reads.apart {cs ds rest rest' : List Char} {f g : Fragment} :
    Reads cs f → Reads ds g → cs ++ rest = ds ++ rest' → Stops rest → Stops rest' →
      f = g ∧ rest = rest'
  | .identifier h, .identifier h', same, stops, stops' => by
    obtain ⟨hname, hrest⟩ := span_unique h.continues h'.continues stops.ends_name stops'.ends_name same
    rw [String.toList_inj.mp hname]
    exact ⟨rfl, hrest⟩
  | .identifier h, .vector _ _, same, stops, _ => by
    rw [toList_vec2] at same
    simp only [List.append_assoc, List.cons_append, List.nil_append] at same
    exact (h.not_called vec2_continues stops same).elim
  | .vector _ _, .identifier h, same, _, stops' => by
    rw [toList_vec2] at same
    simp only [List.append_assoc, List.cons_append, List.nil_append] at same
    exact (h.not_called vec2_continues stops' same.symm).elim
  | .identifier h, .call h' _, same, stops, _ => by
    simp only [List.append_assoc, List.cons_append] at same
    rw [← List.append_assoc] at same
    exact (h.not_called h'.called stops same).elim
  | .call h' _, .identifier h, same, _, stops' => by
    simp only [List.append_assoc, List.cons_append] at same
    rw [← List.append_assoc] at same
    exact (h.not_called h'.called stops' same.symm).elim
  | .vector hx hy, .vector hx' hy', same, stops, stops' => by
    simp only [List.append_assoc, List.append_cancel_left_eq, toList_separator, List.cons_append,
      List.nil_append] at same
    obtain ⟨rfl, same⟩ := number_apart hx hx' .comma .comma same
    simp only [List.cons.injEq, true_and] at same
    obtain ⟨rfl, same⟩ := number_apart hy hy' .closing .closing same
    exact ⟨rfl, (List.cons.inj same).2⟩
  | .vector _ _, .call _ _, same, _, _ => by
    simp at same
  | .call _ _, .vector _ _, same, _, _ => by
    simp at same
  | .call h operands, .call h' operands', same, _, _ => by
    simp only [List.append_assoc, List.cons_append, List.append_cancel_left_eq] at same
    obtain ⟨hname, same⟩ := span_unique h.continues h'.continues opening_ends opening_ends same
    obtain ⟨rfl, hrest⟩ := operands.apart operands' (List.cons.inj same).2
    rw [String.toList_inj.mp hname]
    exact ⟨rfl, hrest⟩

theorem ReadsOperands.apart {cs ds rest rest' : List Char} {fs gs : List Fragment} :
    ReadsOperands cs fs → ReadsOperands ds gs → cs ++ ')' :: rest = ds ++ ')' :: rest' →
      fs = gs ∧ rest = rest'
  | .one h, .one h', same => by
    obtain ⟨rfl, hrest⟩ := h.apart h' same .closing .closing
    exact ⟨rfl, (List.cons.inj hrest).2⟩
  | .one h, .more h' _, same => by
    rw [List.append_assoc] at same
    obtain ⟨-, hrest⟩ := h.apart h' same .closing .comma
    simp at hrest
  | .more h _, .one h', same => by
    rw [List.append_assoc] at same
    obtain ⟨-, hrest⟩ := h.apart h' same .comma .closing
    simp at hrest
  | .more h others, .more h' others', same => by
    rw [List.append_assoc, List.append_assoc] at same
    obtain ⟨rfl, hrest⟩ := h.apart h' same .comma .comma
    obtain ⟨rfl, hrest⟩ := others.apart others' (List.cons.inj hrest).2
    exact ⟨rfl, hrest⟩

end

/-- A text reads as at most one fragment. -/
theorem Reads.unique {cs : List Char} {f g : Fragment} (hf : Reads cs f) (hg : Reads cs g) : f = g :=
  (hf.apart hg rfl .nil .nil).1

/-! ## Names and values -/

namespace Fragment

mutual

/-- The identifiers of a fragment. -/
def names : Fragment → List String
  | identifier name => [name]
  | vector _ _ => []
  | call _ operands => operandNames operands

/-- The identifiers of operands. -/
def operandNames : List Fragment → List String
  | [] => []
  | f :: fs => f.names ++ operandNames fs

end

section Value

variable {R : Type} [Add R] [Sub R] [Mul R] [Div R] [Neg R] [OfScientific R] [Elementary R]

mutual

/-- The value of a fragment at arguments for declared names, if its identifiers are declared and its
calls are of operations. -/
def eval? (declared : List String) (args : List (Point R)) : Fragment → Option (Point R)
  | identifier name => (declared.idxOf? name).bind (args[·]?)
  | vector x y => some (Term.embed ⟨x, y⟩)
  | call name operands => do
    let points ← evalOperands? declared args operands
    let o ← Operation.lookup? name points.length
    o.valueAt? points

/-- The values of operands. -/
def evalOperands? (declared : List String) (args : List (Point R)) :
    List Fragment → Option (List (Point R))
  | [] => some []
  | f :: fs => do
    let point ← f.eval? declared args
    let points ← evalOperands? declared args fs
    some (point :: points)

end

end Value

end Fragment

end Argand
