import Argand.Decimal.Layout
import Argand.Expr.Lexeme
import Argand.Proofs.Decimal.Numeral

/-!
# The characters of written doubles

Whatever the layout, a written double has only characters of numbers (`Layout.inNumeral_write`). Without an
exponent and without a sign it has only digits and points (`Layout.inNumber_write_plain`), so it is what the
front of a number in an expression is made of.
-/

namespace Argand

theorem inNumber_of_isDigit {c : Char} (h : isDigit c = true) : inNumber c = true := by
  rw [inNumber, h, Bool.true_or]

theorem inNumeral_of_inNumber {c : Char} (h : inNumber c = true) : inNumeral c = true := by
  rw [inNumber] at h
  simp only [inNumeral, h, Bool.true_or]

theorem isDigit_of_mem_toDigits {n : Nat} {c : Char} (hc : c ∈ Nat.toDigits 10 n) : isDigit c = true := by
  have digit : c.isDigit = true := Nat.isDigit_of_mem_toDigits (by decide) (by decide) hc
  simp only [Char.isDigit, Bool.and_eq_true, decide_eq_true_eq] at digit
  simp only [isDigit, Bool.and_eq_true, decide_eq_true_eq]
  exact digit

theorem inNumeral_of_mem_toString {i : Int} {c : Char} (hc : c ∈ (toString i).toList) :
    inNumeral c = true := by
  rw [Int.toString_eq_repr, Int.repr_eq_if] at hc
  split at hc
  · rw [Nat.toList_repr] at hc
    exact inNumeral_of_isDigit (isDigit_of_mem_toDigits hc)
  · rw [String.toList_append, Nat.toList_repr] at hc
    rcases List.mem_append.mp hc with hc | hc
    · rw [List.mem_singleton.mp hc]
      rfl
    · exact inNumeral_of_isDigit (isDigit_of_mem_toDigits hc)

namespace Layout

variable {l : Layout}

/-! ## Decimals -/

section Digits

variable {digits : List Char} (hdigits : ∀ c ∈ digits, isDigit c = true)

include hdigits in
theorem inNumber_writePositional (hend : ∀ c ∈ l.wholeEnd, inNumber c = true) (point : Int) :
    ∀ c ∈ l.writePositional digits point, inNumber c = true := by
  have digit : ∀ c ∈ digits, inNumber c = true := fun c hc => inNumber_of_isDigit (hdigits c hc)
  have zeros : ∀ n, ∀ c ∈ List.replicate n '0', inNumber c = true := fun n c hc => by
    rw [List.eq_of_mem_replicate hc]
    rfl
  intro c hc
  rw [writePositional] at hc
  split at hc
  · simp only [List.cons_append, List.mem_cons, List.mem_append] at hc
    rcases hc with rfl | rfl | hc | hc
    · rfl
    · rfl
    · exact zeros _ c hc
    · exact digit c hc
  · dsimp only at hc
    split at hc
    · simp only [List.mem_append] at hc
      rcases hc with (hc | hc) | hc
      · exact digit c hc
      · exact zeros _ c hc
      · exact hend c hc
    · rcases List.mem_append.mp hc with hc | hc
      · exact digit c (List.mem_of_mem_take hc)
      · rcases List.mem_cons.mp hc with rfl | hc
        · rfl
        · exact digit c (List.mem_of_mem_drop hc)

theorem writePositional_ne_nil (nonempty : digits ≠ []) (point : Int) :
    l.writePositional digits point ≠ [] := by
  rw [writePositional]
  split
  · exact List.cons_ne_nil _ _
  · dsimp only
    split
    · simp [nonempty]
    · simp

include hdigits in
theorem inNumeral_writeExponent (place : Int) :
    ∀ c ∈ writeExponent digits place, inNumeral c = true := by
  have power : ∀ c ∈ 'e' :: (toString place).toList, inNumeral c = true :=
    List.forall_mem_cons.mpr ⟨rfl, fun c hc => inNumeral_of_mem_toString hc⟩
  have digit : ∀ c ∈ digits, inNumeral c = true := fun c hc => inNumeral_of_isDigit (hdigits c hc)
  match digits with
  | [] => exact power
  | [d] => exact List.forall_mem_cons.mpr ⟨digit d (List.mem_singleton_self d), power⟩
  | d :: e :: rest =>
    obtain ⟨first, others⟩ := List.forall_mem_cons.mp digit
    refine List.forall_mem_cons.mpr ⟨first, List.forall_mem_cons.mpr ⟨rfl, ?_⟩⟩
    exact List.forall_mem_append.mpr ⟨others, power⟩

end Digits

theorem inNumeral_writeDecimal (hend : ∀ c ∈ l.wholeEnd, inNumber c = true) (d : Decimal) :
    ∀ c ∈ l.writeDecimal d, inNumeral c = true := by
  have digits := @isDigit_of_mem_toDigits d.significand
  intro c hc
  rw [writeDecimal] at hc
  split at hc
  · exact inNumeral_of_inNumber (inNumber_writePositional (fun _ => digits) hend _ c hc)
  · exact inNumeral_writeExponent (fun _ => digits) _ c hc

theorem writeDecimal_plain (d : Decimal) : ∃ point,
    plain.writeDecimal d = plain.writePositional (Nat.toDigits 10 d.significand) point :=
  ⟨_, rfl⟩

/-! ## Doubles -/

theorem inNumeral_write (hend : ∀ c ∈ l.wholeEnd, inNumber c = true) (x : Float) :
    ∀ c ∈ (l.write x).toList, inNumeral c = true := by
  have sign : ∀ c ∈ if (FloatParts.ofFloat x).negative then ['-'] else [], inNumeral c = true := by
    split
    · exact List.forall_mem_singleton.mpr rfl
    · exact fun c hc => (List.not_mem_nil hc).elim
  rw [write]
  split
  · exact List.all_eq_true.mp (by decide)
  · dsimp only
    split
    · rw [String.toList_ofList]
      exact List.forall_mem_append.mpr ⟨sign, List.all_eq_true.mp (by decide)⟩
    · rw [String.toList_ofList]
      exact List.forall_mem_append.mpr ⟨sign, inNumeral_writeDecimal hend _⟩

theorem inNumeral_write_literal (x : Float) : ∀ c ∈ (literal.write x).toList, inNumeral c = true :=
  inNumeral_write (List.all_eq_true.mp (by decide)) x

section Plain

variable {x : Float} (finite : x.isFinite = true) (positive : (FloatParts.ofFloat x).negative = false)

theorem status_of_isFinite (finite : x.isFinite = true) : x.isNaN = false ∧ x.isInf = false := by
  change x.toModel.unpack.isFinite = true at finite
  show x.toModel.unpack.isNaN = false ∧ x.toModel.unpack.isInf = false
  cases h : x.toModel.unpack with
  | notANumber | infinity _ =>
    rw [h] at finite
    cases finite
  | zero _ | finite _ _ _ _ => exact ⟨rfl, rfl⟩

include finite positive in
theorem toList_write_plain : (plain.write x).toList = plain.writeDecimal (.shortest x) := by
  obtain ⟨number, bounded⟩ := status_of_isFinite finite
  rw [write, number, bounded, positive]
  exact String.toList_ofList

include finite positive in
/-- A finite double without a sign is written as digits and points. -/
theorem inNumber_write_plain : ∀ c ∈ (plain.write x).toList, inNumber c = true := by
  rw [toList_write_plain finite positive]
  obtain ⟨point, same⟩ := writeDecimal_plain (.shortest x)
  rw [same]
  exact inNumber_writePositional (fun _ => isDigit_of_mem_toDigits)
    (fun c hc => (List.not_mem_nil hc).elim) point

include finite positive in
theorem write_plain_ne_nil : (plain.write x).toList ≠ [] := by
  rw [toList_write_plain finite positive]
  obtain ⟨point, same⟩ := writeDecimal_plain (.shortest x)
  rw [same]
  exact writePositional_ne_nil Nat.toDigits_ne_nil point

end Plain

end Layout

end Argand
