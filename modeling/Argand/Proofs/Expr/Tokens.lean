import Argand.Proofs.Decimal.Sign
import Argand.Proofs.Expr.Completeness
import Argand.Proofs.Expr.Parts

/-!
# What texts are made of

The parts of an expression that a text reads as come from the tokens of the text : a name from a token or
from the sign of an operation, and a number from a token. The tokens of a text are proper
(`proper_of_scan`) : a name is an identifier, and a number has no sign and is finite, since a minus sign is
a token of its own and a number that is not finite is refused. So the expression is well-formed
(`Expr.wellFormed_of_parse`).
-/

namespace Argand

/-! ## Numbers -/

theorem Numeral.signClear_of_readMagnitude? {cs : List Char} {x : Float} (h : readMagnitude? cs = some x) :
    SignClear x := by
  rw [readMagnitude?] at h
  split at h
  · cases h
    decide +kernel
  · split at h
    · cases h
      decide +kernel
    · obtain ⟨d, -, rfl⟩ := Option.map_eq_some_iff.mp h
      exact d.signClear_toFloat

/-- A text that does not begin with a minus sign reads as a double without a sign. -/
theorem signClear_of_readFloat? {s : String} {x : Float} (h : readFloat? s = some x)
    (unsigned : s.toList.head? ≠ some '-') : SignClear x := by
  rw [readFloat?] at h
  split at h
  · rename_i hs
    rw [hs] at unsigned
    exact absurd rfl unsigned
  · exact Numeral.signClear_of_readMagnitude? h
  · exact Numeral.signClear_of_readMagnitude? h

/-! ## Tokens -/

/-- A token that a text can have. -/
def Token.Proper : Token → Prop
  | number value => IsMagnitude value
  | name text => IsIdentifier text.toList
  | _ => True

theorem proper_of_numberToken {c : Char} {cs : List Char} {t : Token} (first : inNumber c = true)
    (h : numberToken (c :: cs) = .ok t) : t.Proper := by
  rw [numberToken] at h
  split at h
  · cases h
  · rename_i value hread
    split at h
    · rename_i finite
      cases h
      refine ⟨finite, signClear_of_readFloat? hread ?_⟩
      rw [String.toList_ofList]
      rintro ⟨⟩
      exact absurd first (by decide)
    · cases h

theorem Token.proper_of_read {c : Char} {cs : List Char} {t : Token} {more : Nat}
    (h : Token.read c cs = .ok (t, more)) : t.Proper := by
  unfold Token.read at h
  split at h
  · rename_i first
    obtain ⟨t', ht, h⟩ := map_eq_ok.mp h
    cases h
    -- a number has a character at least
    have long : 0 < numberLength (c :: cs) := by
      rw [numberLength, List.takeWhile_cons_of_pos first, List.length_cons]
      omega
    obtain ⟨n, hn⟩ := Nat.exists_eq_succ_of_ne_zero (Nat.ne_of_gt long)
    rw [hn, List.take_succ_cons] at ht
    exact proper_of_numberToken first ht
  · split at h
    · rename_i starts
      cases h
      refine ⟨c, _, String.toList_ofList, starts, fun d hd => ?_⟩
      exact List.all_eq_true.mp List.all_takeWhile d hd
    · split at h <;> cases h <;> trivial

theorem proper_of_scan {position : Nat} {cs : List Char} {ls : List Lexeme}
    (h : scan position cs = .ok ls) : ∀ l ∈ ls, l.token.Proper := by
  induction position, cs using scan.induct generalizing ls with
  | case1 position =>
    rw [scan] at h
    cases h
    exact fun l hl => (List.not_mem_nil hl).elim
  | case2 position c cs blank ih =>
    rw [scan, if_pos blank] at h
    exact ih h
  | case3 position c cs visible cause hread =>
    rw [scan, if_neg visible, hread] at h
    cases h
  | case4 position c cs visible t more hread ih =>
    rw [scan, if_neg visible, hread] at h
    obtain ⟨others, hothers, rfl⟩ := map_eq_ok.mp h
    exact List.forall_mem_cons.mpr ⟨Token.proper_of_read hread, ih hothers⟩

/-! ## Expressions -/

theorem Expr.WellFormed.pair {operation : String} {left right : Expr}
    (hoperation : IsIdentifier operation.toList) (hleft : left.WellFormed)
    (hright : right.WellFormed) : (call operation [left, right]).WellFormed :=
  ⟨hoperation, hleft, hright, trivial⟩

namespace Derives

variable {limit : Nat}

/-- All of the tokens are proper. -/
abbrev AllProper (ts : List Token) : Prop :=
  ∀ t ∈ ts, t.Proper

theorem AllProper.head {t : Token} {ts : List Token} (h : AllProper (t :: ts)) : t.Proper :=
  h t List.mem_cons_self

theorem AllProper.tail {t : Token} {ts : List Token} (h : AllProper (t :: ts)) : AllProper ts :=
  fun u hu => h u (List.mem_cons_of_mem t hu)

mutual

/-- Proper tokens derive well-formed expressions, and what follows is proper. -/
theorem Expression.wellFormed {d n ts e rest} :
    Expression limit d n ts e rest → AllProper ts → e.WellFormed ∧ AllProper rest
  | .one first, h => first.wellFormed h
  | .plus before next, h | .minus before next, h => by
    obtain ⟨left, h⟩ := before.wellFormed h
    obtain ⟨right, h⟩ := next.wellFormed h.tail
    exact ⟨.pair (by decide +kernel) left right, h⟩

theorem Term.wellFormed {d n ts e rest} :
    Term limit d n ts e rest → AllProper ts → e.WellFormed ∧ AllProper rest
  | .one first, h => first.wellFormed h
  | .times before next, h | .divide before next, h => by
    obtain ⟨left, h⟩ := before.wellFormed h
    obtain ⟨right, h⟩ := next.wellFormed h.tail
    exact ⟨.pair (by decide +kernel) left right, h⟩
  | .juxtaposed before _ next, h => by
    obtain ⟨left, h⟩ := before.wellFormed h
    obtain ⟨right, h⟩ := next.wellFormed h
    exact ⟨.pair (by decide +kernel) left right, h⟩

theorem Signed.wellFormed {d ts e rest} :
    Signed limit d ts e rest → AllProper ts → e.WellFormed ∧ AllProper rest
  | .minus _ operand, h => by
    obtain ⟨inner, h⟩ := operand.wellFormed h.tail
    exact ⟨⟨by decide +kernel, inner, trivial⟩, h⟩
  | .plus _ operand, h => operand.wellFormed h.tail
  | .power _ inside, h => inside.wellFormed h

theorem Power.wellFormed {d ts e rest} :
    Power limit d ts e rest → AllProper ts → e.WellFormed ∧ AllProper rest
  | .base only, h => only.wellFormed h
  | .raised below above, h => by
    obtain ⟨base, h⟩ := below.wellFormed h
    obtain ⟨exponent, h⟩ := above.wellFormed h.tail
    exact ⟨.pair (by decide +kernel) base exponent, h⟩

theorem Primary.wellFormed {d ts e rest} :
    Primary limit d ts e rest → AllProper ts → e.WellFormed ∧ AllProper rest
  | .number, h | .name _, h => ⟨h.head, h.tail⟩
  | .call inside, h => by
    obtain ⟨operands, rest⟩ := inside.wellFormed h.tail.tail
    exact ⟨⟨h.head, operands⟩, rest⟩
  | .group inside, h => by
    obtain ⟨inner, rest⟩ := inside.wellFormed h.tail
    exact ⟨inner, rest.tail⟩

theorem Operands.wellFormed {d ts es rest} :
    Operands limit d ts es rest → AllProper ts → Expr.OperandsWellFormed es ∧ AllProper rest
  | .none, h => ⟨trivial, h.tail⟩
  | .some inside, h => inside.wellFormed h

theorem Separated.wellFormed {d ts es rest} :
    Separated limit d ts es rest → AllProper ts → Expr.OperandsWellFormed es ∧ AllProper rest
  | .last only, h => by
    obtain ⟨e, rest⟩ := only.wellFormed h
    exact ⟨⟨e, trivial⟩, rest.tail⟩
  | .more first others, h => by
    obtain ⟨e, h⟩ := first.wellFormed h
    obtain ⟨es, rest⟩ := others.wellFormed h.tail
    exact ⟨⟨e, es⟩, rest⟩

end

end Derives

/-- What a text reads as is well-formed. -/
theorem Expr.wellFormed_of_parse {source : String} {e : Expr} (h : Expr.parse source = .ok e) :
    e.WellFormed := by
  obtain ⟨ls, hls, n, hd⟩ := Expr.parse_eq_ok_iff.mp h
  refine (hd.wellFormed fun t ht => ?_).1
  obtain ⟨l, hl, rfl⟩ := List.mem_map.mp ht
  exact proper_of_scan hls l hl

end Argand
