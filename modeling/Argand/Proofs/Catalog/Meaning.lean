import Argand.Proofs.Catalog.Reading

/-!
# What shader bodies mean

A body has a value at points for its parameters (`Body.value?`) : vectors are points, their operators work
part by part, and the functions of the language are those of the reals, whatever these are. Calls mean what
the operations mean that are defined above (`call?`), where a definition is no more than its text.

If calls have the values of the catalog, so have the bodies (`value?_body`). That is all there is to
compare, body by body, and the order of multiplications is the only thing in which a body and the value of
its operation differ. In an order of definition a call is of an operation defined before, so all calls do have
these values (`Ordered.call?_eq_valueAt?`), in particular where all operations are defined
(`definitions_agree`).
-/

namespace Argand

namespace Shader

section Values

variable {R : Type} [Add R] [Sub R] [Mul R] [Div R] [Neg R] [OfScientific R] [Elementary R]

/-! ## Expressions -/

/-- The points of the names that stand for vectors. -/
abbrev Scope (R : Type) := Variable → Option (Point R)

/-- One more name. -/
def Scope.declare (scope : Scope R) (v : Variable) (p : Point R) : Scope R :=
  fun w => if w = v then some p else scope w

def RealOperator.value : RealOperator → R → R → R
  | plus, x, y => x + y
  | minus, x, y => x - y
  | times, x, y => x * y

def Function.value : Function → R → R
  | exp, x => Elementary.exp x
  | log, x => Elementary.ln x
  | sin, x => Elementary.sin x
  | cos, x => Elementary.cos x

/-- The value of a real expression, if its names are declared. -/
def Scalar.value? (scope : Scope R) : Scalar → Option R
  | number units places _ => some (OfScientific.ofScientific units true places)
  | x v => (scope v).map (·.re)
  | y v => (scope v).map (·.im)
  | negate s => (s.value? scope).map (-·)
  | operate o _ s t => do some (o.value (← s.value? scope) (← t.value? scope))
  | apply f s => (s.value? scope).map f.value
  | atan s t => do some (Elementary.atan2 (← s.value? scope) (← t.value? scope))
  | dot v w => do
    let p ← scope v
    let q ← scope w
    some (p.re * q.re + p.im * q.im)
  | length v => (scope v).map fun p => Elementary.hypot p.re p.im

/-- What the operations mean that can be called. -/
abbrev Calls (R : Type) := Operation → List (Point R) → Option (Point R)

/-- The value of a vector expression, if its names are declared and its calls have values. -/
def Vec.value? (calls : Calls R) (scope : Scope R) : Vec → Option (Point R)
  | named v => scope v
  | pair s t => do some ⟨← s.value? scope, ← t.value? scope⟩
  | negate v => (v.value? calls scope).map fun p => ⟨-p.re, -p.im⟩
  | plus v w => do
    let p ← v.value? calls scope
    let q ← w.value? calls scope
    some ⟨p.re + q.re, p.im + q.im⟩
  | minus v w => do
    let p ← v.value? calls scope
    let q ← w.value? calls scope
    some ⟨p.re - q.re, p.im - q.im⟩
  | scale _ s v => do
    let x ← s.value? scope
    let p ← v.value? calls scope
    some ⟨x * p.re, x * p.im⟩
  | quotient _ v s => do
    let p ← v.value? calls scope
    let x ← s.value? scope
    some ⟨p.re / x, p.im / x⟩
  | paren v => v.value? calls scope
  | unary f v => do calls (.unary f) [← v.value? calls scope]
  | binary f v w => do calls (.binary f) [← v.value? calls scope, ← w.value? calls scope]

/-! ## Definitions -/

/-- Declares local vectors one after the other. -/
def declareAll? (calls : Calls R) : List (Variable × Vec) → Scope R → Option (Scope R)
  | [], scope => some scope
  | (v, value) :: locals, scope => do
    declareAll? calls locals (scope.declare v (← value.value? calls scope))

/-- The value of a body, if its calls have values. -/
def Body.value? (calls : Calls R) (scope : Scope R) (body : Body) : Option (Point R) := do
  body.result.value? calls (← declareAll? calls body.locals scope)

/-- The parameters of an operation, if there are as many arguments. -/
def parameters? : Operation → List (Point R) → Option (Scope R)
  | .unary _, [a] => some fun v => match v with
    | .a => some a
    | _ => none
  | .binary _, [a, b] => some fun v => match v with
    | .a => some a
    | .b => some b
    | _ => none
  | _, _ => none

/-- What an operation means where some operations are defined, the last one first. The text of its body is
read, and its calls are of the operations defined before. -/
def call? : List Operation → Calls R
  | [], _, _ => none
  | d :: above, o, args =>
    if o = d then do
      let body ← Body.read? d.body.write
      body.value? (call? above) (← parameters? d args)
    else call? above o args

/-! ## Calls alone matter -/

theorem Vec.value?_congr {calls calls' : Calls R} (scope : Scope R) : ∀ {v : Vec},
    (∀ d ∈ v.calls, calls d = calls' d) → v.value? calls scope = v.value? calls' scope
  | named _, _ => rfl
  | pair _ _, _ => rfl
  | negate v, same => by
    rw [value?, value?, value?_congr scope (v := v) same]
  | plus v w, same => by
    rw [value?, value?, value?_congr scope (v := v) fun d hd => same d (List.mem_append_left _ hd),
      value?_congr scope (v := w) fun d hd => same d (List.mem_append_right _ hd)]
  | minus v w, same => by
    rw [value?, value?, value?_congr scope (v := v) fun d hd => same d (List.mem_append_left _ hd),
      value?_congr scope (v := w) fun d hd => same d (List.mem_append_right _ hd)]
  | scale _ s v, same => by
    rw [value?, value?, value?_congr scope (v := v) same]
  | quotient _ v s, same => by
    rw [value?, value?, value?_congr scope (v := v) same]
  | paren v, same => value?_congr scope (v := v) same
  | unary f v, same => by
    rw [value?, value?, value?_congr scope (v := v) fun d hd => same d (List.mem_cons_of_mem _ hd),
      same _ List.mem_cons_self]
  | binary f v w, same => by
    rw [value?, value?,
      value?_congr scope (v := v) fun d hd => same d (List.mem_cons_of_mem _ (List.mem_append_left _ hd)),
      value?_congr scope (v := w) fun d hd => same d (List.mem_cons_of_mem _ (List.mem_append_right _ hd)),
      same _ List.mem_cons_self]

theorem declareAll?_congr {calls calls' : Calls R} : ∀ {locals : List (Variable × Vec)} (scope : Scope R),
    (∀ d ∈ locals.flatMap (·.2.calls), calls d = calls' d) →
      declareAll? calls locals scope = declareAll? calls' locals scope
  | [], _, _ => rfl
  | (v, value) :: locals, scope, same => by
    rw [List.flatMap_cons] at same
    rw [declareAll?, declareAll?, value.value?_congr scope fun d hd => same d (List.mem_append_left _ hd)]
    cases value.value? calls' scope with
    | none => rfl
    | some p => exact declareAll?_congr _ fun d hd => same d (List.mem_append_right _ hd)

theorem Body.value?_congr {calls calls' : Calls R} (scope : Scope R) {body : Body}
    (same : ∀ d ∈ body.calls, calls d = calls' d) :
    body.value? calls scope = body.value? calls' scope := by
  rw [value?, value?, declareAll?_congr scope fun d hd => same d (List.mem_append_left _ hd)]
  cases declareAll? calls' body.locals scope with
  | none => rfl
  | some scope => exact body.result.value?_congr scope fun d hd => same d (List.mem_append_right _ hd)

end Values

end Shader

open Shader

section Agreement

variable {R : Type} [Add R] [Sub R] [Mul R] [Div R] [Neg R] [OfScientific R] [Elementary R]

/-! ## Bodies have the values of their operations -/

/-- Where calls have their values, the body of an operation has the value of the operation. -/
theorem Unary.value?_body (commutative : ∀ x y : R, x * y = y * x) (f : Unary) (a : Point R) :
    (parameters? (.unary f) [a]).bind (f.body.value? Operation.valueAt?) = some (f.apply a) := by
  have half (p : Point R) : (⟨0.5 * p.re, 0.5 * p.im⟩ : Point R) = p * (0.5 : R) := by
    rw [commutative, commutative 0.5 p.im]
    rfl
  cases f
  -- The bodies of three operations have their half on the other side.
  case cosh => exact congrArg some (half (a.exp + a.exp⁻¹))
  case sinh => exact congrArg some (half (a.exp - a.exp⁻¹))
  case sqrt => exact congrArg (fun p => some p.exp) (half a.log)
  all_goals rfl

theorem Binary.value?_body (f : Binary) (a b : Point R) :
    (parameters? (.binary f) [a, b]).bind (f.body.value? Operation.valueAt?) = some (f.apply a b) := by
  cases f <;> rfl

namespace Operation

/-- Neither has a value if there are not as many arguments as parameters. -/
theorem value?_body (commutative : ∀ x y : R, x * y = y * x) (o : Operation) (args : List (Point R)) :
    (parameters? o args).bind (o.body.value? valueAt?) = o.valueAt? args := by
  match o, args with
  | unary f, [a] => exact f.value?_body commutative a
  | binary f, [a, b] => exact f.value?_body a b
  | unary _, [] | unary _, _ :: _ :: _ => rfl
  | binary _, [] | binary _, [_] | binary _, _ :: _ :: _ :: _ => rfl

/-! ## Shaders -/

/-- In an order of definition operations mean their values. -/
theorem Ordered.call?_eq_valueAt? (commutative : ∀ x y : R, x * y = y * x) {order : List Operation}
    (h : Ordered order) : ∀ o ∈ order, (call? order.reverse o : List (Point R) → _) = o.valueAt? := by
  induction h with
  | nil => exact fun o ho => absurd ho List.not_mem_nil
  | @snoc order last _ fresh needs ih =>
    intro o ho
    funext args
    rw [List.reverse_append, List.reverse_singleton, List.singleton_append, call?]
    rcases List.mem_append.mp ho with ho | ho
    · have other : o ≠ last := fun h => fresh (h ▸ ho)
      rw [if_neg other, ih o ho]
    · obtain rfl := List.mem_singleton.mp ho
      have values (scope : Scope R) :
          o.body.value? (call? order.reverse) scope = o.body.value? valueAt? scope :=
        o.body.value?_congr scope fun d hd => ih d (needs d hd)
      rw [if_pos rfl, read?_body, ← value?_body commutative o args]
      exact congrArg (parameters? o args).bind (funext values)

theorem mem_emissionOrder_all (o : Operation) : o ∈ emissionOrder all :=
  mem_emissionOrder.mpr ⟨o, o.mem_all, .refl⟩

/-- In the shader that defines all operations, every one of them means its value at points. -/
theorem definitions_agree (commutative : ∀ x y : R, x * y = y * x) :
    (∀ (f : Unary) (a : Point R), call? (emissionOrder all).reverse (.unary f) [a] = some (f.apply a)) ∧
    (∀ (f : Binary) (a b : Point R),
      call? (emissionOrder all).reverse (.binary f) [a, b] = some (f.apply a b)) := by
  have values (o : Operation) := (ordered_emissionOrder all).call?_eq_valueAt? commutative o
    o.mem_emissionOrder_all
  exact ⟨fun f a => congrFun (values (.unary f)) [a], fun f a b => congrFun (values (.binary f)) [a, b]⟩

end Operation

end Agreement

/-! ## Doubles -/

namespace Double

open Float.Model (UnpackedFloat)

theorem sign_mul_comm (s t : UnpackedFloat.Sign) : s * t = t * s := by
  cases s <;> cases t <;> rfl

theorem unpacked_mul_comm (format : Float.Model.Format) (x y : UnpackedFloat) :
    UnpackedFloat.mul format x y = UnpackedFloat.mul format y x := by
  cases x with
  | notANumber => cases y <;> rfl
  | infinity s =>
    cases y with
    | notANumber | zero => rfl
    | infinity t | finite t => exact congrArg UnpackedFloat.infinity (sign_mul_comm s t)
  | zero s =>
    cases y with
    | notANumber | infinity => rfl
    | zero t | finite t => exact congrArg UnpackedFloat.zero (sign_mul_comm s t)
  | finite s m e =>
    cases y with
    | notANumber => rfl
    | infinity t => exact congrArg UnpackedFloat.infinity (sign_mul_comm s t)
    | zero t => exact congrArg UnpackedFloat.zero (sign_mul_comm s t)
    | finite t n d =>
      change UnpackedFloat.roundWithAccuracy format (s * t) (m * n) (e + d) .exact =
        UnpackedFloat.roundWithAccuracy format (t * s) (n * m) (d + e) .exact
      rw [sign_mul_comm, Nat.mul_comm, Int.add_comm]

/-- The product of doubles rounds the exact one, so it does not depend on the order of its factors. -/
theorem mul_commutes (x y : Float) : x * y = y * x :=
  congrArg (fun z => Float.ofModel (Float.Model.pack z))
    (unpacked_mul_comm .binary64 x.toModel.unpack y.toModel.unpack)

end Double

/-- On doubles : the quotient of a nested operation, and a power. -/
theorem Operation.definitions_agree_doubles :
    (∀ x y : Float, x * y = y * x) ∧
    call? (emissionOrder all).reverse (.unary .cot) [⟨0.5, -2.0⟩] =
      some (Unary.cot.apply (⟨0.5, -2.0⟩ : Point Float)) ∧
    call? (emissionOrder all).reverse (.binary .pow) [⟨0.5, -2.0⟩, ⟨3.0, 1.0⟩] =
      some (Binary.pow.apply (⟨0.5, -2.0⟩ : Point Float) ⟨3.0, 1.0⟩) :=
  have values := definitions_agree Double.mul_commutes
  ⟨Double.mul_commutes, values.1 .cot _, values.2 .pow _ _⟩

end Argand
