import Argand.Expr.Grammar

/-!
# Derivations

The grammar of expressions as rules on tokens, beside the readers that carry it out. A rule says that
tokens begin with a phrase that stands for an expression, and what follows the phrase :

* `Derives.Expression` : terms with plus or minus signs between them;
* `Derives.Term` : signed operands with a multiplication or division sign between them, or nothing
  where the next operand opens with a number, a name or a parenthesis;
* `Derives.Signed` : a power behind any number of signs;
* `Derives.Power` : a primary, or a primary raised to a signed operand;
* `Derives.Primary` : a number, a name that no parenthesis follows, a call, or a group;
* `Derives.Operands` and `Derives.Separated` : what stands behind the opening parenthesis of a call.

The rules for chains are left-recursive, which is what makes the signs associate to the left, and
they may stop anywhere : nothing in a rule looks further than its phrase, but for the name that has
to see whether it is called. Every phrase is entered at a depth. The rule for signed operands is the
only one that spends depth, and the only one that looks at the limit.

`Derivable` says that all of the tokens are one expression, entered at depth zero.
-/

namespace Argand

namespace Derives

/-- Whether tokens begin with one that opens an operand without a sign. -/
def opensOperand : List Token → Bool
  | .number _ :: _ => true
  | .name _ :: _ => true
  | .opening :: _ => true
  | _ => false

/-- Whether tokens begin with one that begins an expression. -/
def beginsExpression : List Token → Bool
  | .plus :: _ => true
  | .minus :: _ => true
  | ts => opensOperand ts

mutual

/-- `Expression limit d n ts e rest` : before `rest`, the tokens `ts` are `n + 1` terms that make up
`e`, entered at depth `d`. The term of index `i` is entered at depth `d + i`. -/
inductive Expression (limit : Nat) : Nat → Nat → List Token → Expr → List Token → Prop
  | one {d m ts e rest} (first : Term limit d m ts e rest) : Expression limit d 0 ts e rest
  | plus {d n m ts us left right rest} (before : Expression limit d n ts left (.plus :: us))
      (next : Term limit (d + (n + 1)) m us right rest) :
      Expression limit d (n + 1) ts (.call "add" [left, right]) rest
  | minus {d n m ts us left right rest} (before : Expression limit d n ts left (.minus :: us))
      (next : Term limit (d + (n + 1)) m us right rest) :
      Expression limit d (n + 1) ts (.call "subtract" [left, right]) rest

/-- `Term limit d n ts e rest` : before `rest`, the tokens `ts` are `n + 1` signed operands that make
up `e`, entered at depth `d`. The operand of index `j` is entered at depth `d + j`. -/
inductive Term (limit : Nat) : Nat → Nat → List Token → Expr → List Token → Prop
  | one {d ts e rest} (first : Signed limit d ts e rest) : Term limit d 0 ts e rest
  | times {d n ts us left right rest} (before : Term limit d n ts left (.times :: us))
      (next : Signed limit (d + (n + 1)) us right rest) :
      Term limit d (n + 1) ts (.call "multiply" [left, right]) rest
  | divide {d n ts us left right rest} (before : Term limit d n ts left (.divide :: us))
      (next : Signed limit (d + (n + 1)) us right rest) :
      Term limit d (n + 1) ts (.call "divide" [left, right]) rest
  | juxtaposed {d n ts us left right rest} (before : Term limit d n ts left us)
      (opens : opensOperand us = true) (next : Signed limit (d + (n + 1)) us right rest) :
      Term limit d (n + 1) ts (.call "multiply" [left, right]) rest

/-- `Signed limit d ts e rest` : before `rest`, the tokens `ts` are a power behind any number of signs,
entered at depth `d`. What is inside is one level deeper, and there has to be such a level. -/
inductive Signed (limit : Nat) : Nat → List Token → Expr → List Token → Prop
  | minus {d ts e rest} (room : d + 1 ≤ limit) (operand : Signed limit (d + 1) ts e rest) :
      Signed limit d (.minus :: ts) (.call "negate" [e]) rest
  | plus {d ts e rest} (room : d + 1 ≤ limit) (operand : Signed limit (d + 1) ts e rest) :
      Signed limit d (.plus :: ts) e rest
  | power {d ts e rest} (room : d + 1 ≤ limit) (inside : Power limit (d + 1) ts e rest) :
      Signed limit d ts e rest

/-- `Power limit d ts e rest` : before `rest`, the tokens `ts` are a primary that may be raised to a
signed operand, inside at depth `d`. -/
inductive Power (limit : Nat) : Nat → List Token → Expr → List Token → Prop
  | base {d ts e rest} (only : Primary limit d ts e rest) : Power limit d ts e rest
  | raised {d ts us base exponent rest} (below : Primary limit d ts base (.power :: us))
      (above : Signed limit d us exponent rest) :
      Power limit d ts (.call "pow" [base, exponent]) rest

/-- `Primary limit d ts e rest` : before `rest`, the tokens `ts` are a number, a name, a call or a
group, inside at depth `d`. -/
inductive Primary (limit : Nat) : Nat → List Token → Expr → List Token → Prop
  | number {d value rest} : Primary limit d (.number value :: rest) (.literal value) rest
  | name {d text rest} (uncalled : rest.head? ≠ some .opening) :
      Primary limit d (.name text :: rest) (.symbol text) rest
  | call {d text ts operands rest} (inside : Operands limit d ts operands rest) :
      Primary limit d (.name text :: .opening :: ts) (.call text operands) rest
  | group {d n ts e rest} (inside : Expression limit d n ts e (.closing :: rest)) :
      Primary limit d (.opening :: ts) (.group e) rest

/-- `Operands limit d ts es rest` : before `rest`, the tokens `ts` are the operands of a call, entered
at depth `d`, and the closing parenthesis. -/
inductive Operands (limit : Nat) : Nat → List Token → List Expr → List Token → Prop
  | none {d rest} : Operands limit d (.closing :: rest) [] rest
  | some {d ts es rest} (inside : Separated limit d ts es rest) : Operands limit d ts es rest

/-- `Separated limit d ts es rest` : before `rest`, the tokens `ts` are one expression or more with
commas between them, each entered at depth `d`, and the closing parenthesis. -/
inductive Separated (limit : Nat) : Nat → List Token → List Expr → List Token → Prop
  | last {d n ts e rest} (only : Expression limit d n ts e (.closing :: rest)) :
      Separated limit d ts [e] rest
  | more {d n ts us e es rest} (first : Expression limit d n ts e (.comma :: us))
      (others : Separated limit d us es rest) : Separated limit d ts (e :: es) rest

end

end Derives

/-- The tokens are one expression that nests no deeper than the limit, and stand for `e`. -/
def Derivable (limit : Nat) (ts : List Token) (e : Expr) : Prop :=
  ∃ n, Derives.Expression limit 0 n ts e []

/-! ## What phrases begin with -/

namespace Derives

variable {limit : Nat}

theorem beginsExpression_of_opens {ts : List Token} (h : opensOperand ts = true) :
    beginsExpression ts = true := by
  unfold beginsExpression
  split
  · rfl
  · rfl
  · exact h

theorem Primary.opens {d ts e rest} (h : Primary limit d ts e rest) : opensOperand ts = true := by
  cases h <;> rfl

theorem Power.opens {d ts e rest} (h : Power limit d ts e rest) : opensOperand ts = true := by
  cases h with
  | base only => exact only.opens
  | raised below _ => exact below.opens

theorem Signed.begins {d ts e rest} (h : Signed limit d ts e rest) :
    beginsExpression ts = true := by
  cases h with
  | minus | plus => rfl
  | power _ inside => exact beginsExpression_of_opens inside.opens

theorem Term.begins {d n ts e rest} : Term limit d n ts e rest → beginsExpression ts = true
  | .one first => first.begins
  | .times before _ | .divide before _ | .juxtaposed before _ _ => before.begins

theorem Expression.begins {d n ts e rest} :
    Expression limit d n ts e rest → beginsExpression ts = true
  | .one first => first.begins
  | .plus before _ | .minus before _ => before.begins

theorem Separated.begins {d ts es rest} (h : Separated limit d ts es rest) :
    beginsExpression ts = true := by
  cases h with
  | last only => exact only.begins
  | more first _ => exact first.begins

/-! ## Rooms -/

theorem Signed.room {d ts e rest} (h : Signed limit d ts e rest) : d + 1 ≤ limit := by
  cases h with
  | minus room _ => exact room
  | plus room _ => exact room
  | power room _ => exact room

theorem Term.room {d n ts e rest} (h : Term limit d n ts e rest) : d + n + 1 ≤ limit := by
  cases h with
  | one first => exact first.room
  | times _ next => exact next.room
  | divide _ next => exact next.room
  | juxtaposed _ _ next => exact next.room

theorem Expression.room {d n ts e rest} (h : Expression limit d n ts e rest) :
    d + n + 1 ≤ limit := by
  cases h with
  | one first =>
    have := first.room
    omega
  | plus _ next | minus _ next =>
    have := next.room
    omega

/-! ## Phrases are not empty -/

mutual

theorem Expression.length_lt {d n ts e rest} :
    Expression limit d n ts e rest → rest.length < ts.length
  | .one first => first.length_lt
  | .plus before next | .minus before next => by
    have := before.length_lt
    have := next.length_lt
    simp only [List.length_cons] at *
    omega

theorem Term.length_lt {d n ts e rest} : Term limit d n ts e rest → rest.length < ts.length
  | .one first => first.length_lt
  | .times before next | .divide before next => by
    have := before.length_lt
    have := next.length_lt
    simp only [List.length_cons] at *
    omega
  | .juxtaposed before _ next => Nat.lt_trans next.length_lt before.length_lt

theorem Signed.length_lt {d ts e rest} : Signed limit d ts e rest → rest.length < ts.length
  | .minus _ operand | .plus _ operand => Nat.lt_trans operand.length_lt (Nat.lt_succ_self _)
  | .power _ inside => inside.length_lt

theorem Power.length_lt {d ts e rest} : Power limit d ts e rest → rest.length < ts.length
  | .base only => only.length_lt
  | .raised below above => by
    have := below.length_lt
    have := above.length_lt
    simp only [List.length_cons] at *
    omega

theorem Primary.length_lt {d ts e rest} : Primary limit d ts e rest → rest.length < ts.length
  | .number | .name _ => Nat.lt_succ_self _
  | .call inside => by
    have := inside.length_add_le
    simp only [List.length_cons] at *
    omega
  | .group inside => by
    have := inside.length_lt
    simp only [List.length_cons] at *
    omega

/-- Each operand takes a token, and so does what closes the call. -/
theorem Operands.length_add_le {d ts es rest} :
    Operands limit d ts es rest → rest.length + es.length ≤ ts.length
  | .none => Nat.le_succ _
  | .some inside => inside.length_add_le

theorem Separated.length_add_le {d ts es rest} :
    Separated limit d ts es rest → rest.length + es.length ≤ ts.length
  | .last only => Nat.le_of_lt only.length_lt
  | .more first others => by
    have := first.length_lt
    have := others.length_add_le
    simp only [List.length_cons] at *
    omega

end

end Derives

end Argand
