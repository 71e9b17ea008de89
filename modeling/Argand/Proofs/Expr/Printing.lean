import Argand.Proofs.Decimal.Layout
import Argand.Proofs.Expr.Tokens
import Argand.Proofs.Expr.Towers

/-!
# Reading what was printed

A printed expression reads as the expression again, as long as it is no higher than the limit on nesting.
Every operator is printed as a call, so no sign is left to associate, and a level of the expression takes one
level of the readers : the limit is exact here, other than for texts with signs. An expression beyond the
limit fails for its nesting and for nothing else (`Expr.parse_toString`).

`Expr.spell` are the tokens of a printed expression, in front of those that follow it. The text is cut into
them, since an operand is followed by a comma or a parenthesis, or by nothing, and neither a name nor a
number goes on there (`Expr.scans_print`). They derive the expression where its height is left
(`Expr.derives_spell`). Where it is not, the first operand that is too high stops the readers
(`Expr.tooDeep_spell`).
-/

namespace Argand

/-! ## Tokens -/

namespace Expr

mutual

/-- The tokens of a printed expression, and of what follows. -/
def spell : Expr → List Token → List Token
  | symbol name, rest => .name name :: rest
  | literal value, rest => .number value :: rest
  | call operation operands, rest =>
    .name operation :: .opening :: spellOperands operands (.closing :: rest)
  | group inner, rest => .opening :: inner.spell (.closing :: rest)

/-- The tokens of printed operands, and of what follows. -/
def spellOperands : List Expr → List Token → List Token
  | [], rest => rest
  | [e], rest => e.spell rest
  | e :: es, rest => e.spell (.comma :: spellOperands es rest)

end

mutual

/-- The text of a well-formed expression is cut into its tokens. -/
theorem scans_print : ∀ (e : Expr) {cs : List Char} {ts : List Token}, e.WellFormed →
    (∀ x ∈ e.literals, readFloat? (Layout.plain.write x) = some x) → Stops cs → Scans cs ts →
    Scans (e.print ++ cs) (e.spell ts)
  | symbol _, _, _, named, _, stops, h => .identifier named stops.ends_name h
  | literal value, _, _, ⟨finite, clear⟩, hread, stops, h =>
    .number (Layout.inNumber_write_plain finite clear.not_negative)
      (Layout.write_plain_ne_nil finite clear.not_negative) (hread value List.mem_cons_self) finite stops h
  | call operation operands, cs, ts, ⟨named, inside⟩, hread, _, h => by
    have closing : Scans (')' :: cs) (.closing :: ts) := .sign rfl h
    have opening : Scans ('(' :: (printOperands operands ++ ')' :: cs)) (.opening :: _) :=
      .sign rfl (scans_printOperands operands inside hread .closing closing)
    have ends : Ends continuesName ('(' :: (printOperands operands ++ ')' :: cs)) :=
      (by decide +kernel : continuesName '(' = false)
    have call := Scans.identifier named ends opening
    simpa only [print, spell, List.append_assoc, List.cons_append, List.nil_append] using call
  | group inner, cs, ts, inside, hread, _, h => by
    have closing : Scans (')' :: cs) (.closing :: ts) := .sign rfl h
    have group : Scans ('(' :: (inner.print ++ ')' :: cs)) (.opening :: _) :=
      .sign rfl (scans_print inner inside hread .closing closing)
    simpa only [print, spell, List.append_assoc, List.cons_append, List.nil_append] using group

theorem scans_printOperands : ∀ (es : List Expr) {cs : List Char} {ts : List Token},
    OperandsWellFormed es → (∀ x ∈ operandLiterals es, readFloat? (Layout.plain.write x) = some x) →
    Stops cs → Scans cs ts → Scans (printOperands es ++ cs) (spellOperands es ts)
  | [], _, _, _, _, _, h => h
  | [e], _, _, ⟨first, _⟩, hread, stops, h =>
    scans_print e first (fun x hx => hread x (List.mem_append_left [] hx)) stops h
  | e :: e' :: es, cs, ts, ⟨first, others⟩, hread, stops, h => by
    have others := scans_printOperands (e' :: es) others
      (fun x hx => hread x (List.mem_append_right _ hx)) stops h
    have comma : Scans (',' :: ' ' :: (printOperands (e' :: es) ++ cs)) (.comma :: _) :=
      .sign rfl (.blank (by decide +kernel) others)
    have all := scans_print e first (fun x hx => hread x (List.mem_append_left _ hx)) .comma comma
    simpa only [printOperands, spellOperands, List.append_assoc, List.cons_append] using all

end

end Expr

/-! ## Within the limit -/

namespace Derives

variable {limit : Nat}

theorem Expression.ofPrimary {d ts e rest} (room : d + 1 ≤ limit) (h : Primary limit (d + 1) ts e rest) :
    Expression limit d 0 ts e rest :=
  .one (.one (.power room (.base h)))

end Derives

namespace Expr

variable {limit : Nat}

mutual

/-- The tokens of an expression derive it where as many levels are left as it is high. -/
theorem derives_spell : ∀ (e : Expr) {d : Nat} {rest : List Token}, d + e.height ≤ limit →
    rest.head? ≠ some .opening → Derives.Expression limit d 0 (e.spell rest) e rest
  | symbol _, _, _, room, hrest => .ofPrimary room (.name hrest)
  | literal _, _, _, room, _ => .ofPrimary room .number
  | call _ [], d, _, room, _ => .ofPrimary room (.call .none)
  | call _ (e :: es), d, rest, room, _ => by
    rw [height] at room
    have operands : Derives.Separated limit (d + 1) _ (e :: es) rest :=
      separated_spell (e :: es) (List.cons_ne_nil e es) (by omega)
    exact .ofPrimary (by omega) (.call (.some operands))
  | group inner, d, rest, room, _ => by
    rw [height] at room
    exact .ofPrimary (by omega) (.group (derives_spell inner (by omega) nofun))

theorem separated_spell : ∀ (es : List Expr) {d : Nat} {rest : List Token}, es ≠ [] →
    d + operandsHeight es ≤ limit →
    Derives.Separated limit d (spellOperands es (.closing :: rest)) es rest
  | [], _, _, nonempty, _ => absurd rfl nonempty
  | [e], d, rest, _, room => by
    rw [operandsHeight] at room
    exact .last (derives_spell e (by omega) nofun)
  | e :: e' :: es, d, rest, _, room => by
    rw [operandsHeight] at room
    exact .more (derives_spell e (by omega) nofun)
      (separated_spell (e' :: es) (List.cons_ne_nil e' es) (by omega))

end

end Expr

/-! ## Beyond the limit -/

namespace Grammar

variable {α β : Type} {stop : Nat}

/-- A reading failed because no level was left. -/
def TooDeep (outcome : Except SyntaxError α) : Prop :=
  ∃ position, outcome = .error ⟨position, .nestedTooDeeply⟩

theorem tooDeep_fail (ls : List Lexeme) : TooDeep (fail stop ls .nestedTooDeeply : Except SyntaxError α) := by
  cases ls with
  | nil => exact ⟨stop, rfl⟩
  | cons l _ => exact ⟨l.position, rfl⟩

theorem TooDeep.bind {outcome : Except SyntaxError α} (h : TooDeep outcome)
    (next : α → Except SyntaxError β) : TooDeep (outcome >>= next) := by
  obtain ⟨position, rfl⟩ := h
  exact ⟨position, rfl⟩

theorem tooDeep_expression_zero (ls : List Lexeme) : TooDeep (expression stop (levels stop 0) ls) :=
  (tooDeep_fail ls).bind _

/-- An expression that begins with a primary fails with it. -/
theorem TooDeep.expression {n : Nat} {ls : List Lexeme} (opens : Derives.opensOperand (tokens ls) = true)
    (h : TooDeep (primary stop (levels stop n) ls)) : TooDeep (expression stop (levels stop (n + 1)) ls) := by
  have inside : TooDeep (top stop (levels stop (n + 1)) ls) := by
    show TooDeep (signed stop (levels stop n) ls)
    rw [signed_of_opens opens]
    exact h.bind _
  have first : TooDeep (top stop (terms stop (levels stop (n + 1))) ls) := by
    rw [top_terms]
    exact inside.bind _
  exact first.bind _

end Grammar

namespace Expr

open Grammar

variable {stop : Nat}

theorem beginsExpression_spell (e : Expr) (rest : List Token) :
    Derives.beginsExpression (e.spell rest) = true := by
  cases e <;> rfl

theorem beginsExpression_spellOperands (e : Expr) (es : List Expr) (rest : List Token) :
    Derives.beginsExpression (spellOperands (e :: es) rest) = true := by
  cases es <;> exact beginsExpression_spell e _

theorem length_le_spellOperands (e : Expr) (es : List Expr) (rest : List Token) :
    (e :: es).length ≤ (spellOperands (e :: es) (.closing :: rest)).length := by
  have derived : Derives.Separated (operandsHeight (e :: es)) 0 _ (e :: es) rest :=
    separated_spell (e :: es) (List.cons_ne_nil e es) (by omega)
  have := derived.length_add_le
  omega

theorem read_spell (e : Expr) {n : Nat} {rest : List Token} {ls : List Lexeme}
    (room : e.height ≤ n) (hls : tokens ls = e.spell (.comma :: rest)) :
    ∃ p us, tokens us = rest ∧
      Grammar.expression stop (levels stop n) ls = .ok (e, ⟨.comma, p⟩ :: us) := by
  have derived : Derives.Expression n 0 0 (e.spell (.comma :: rest)) e (.comma :: rest) :=
    derives_spell e (by omega) nofun
  obtain ⟨vs, hvs, hread⟩ := derived.complete stop rfl ls hls
  obtain ⟨p, us, rfl, hus⟩ := eq_cons_of_tokens hvs
  rw [Nat.sub_zero, chainFrom_end rfl] at hread
  exact ⟨p, us, hus, hread⟩

mutual

/-- The readers fail at an expression that is higher than the levels they have, for want of levels. -/
theorem tooDeep_spell : ∀ (e : Expr) {n : Nat} {rest : List Token} {ls : List Lexeme}, n < e.height →
    tokens ls = e.spell rest → TooDeep (Grammar.expression stop (levels stop n) ls)
  | _, 0, _, ls, _, _ => tooDeep_expression_zero ls
  | symbol _, n + 1, _, _, high, _ | literal _, n + 1, _, _, high, _ | call _ [], n + 1, _, _, high, _ =>
    absurd (Nat.lt_of_succ_lt_succ high) (Nat.not_lt_zero n)
  | call operation (e :: es), n + 1, rest, ls, high, hls => by
    refine TooDeep.expression (hls ▸ rfl) ?_
    obtain ⟨p, us, rfl, hus⟩ := eq_cons_of_tokens hls
    obtain ⟨q, vs, rfl, hvs⟩ := eq_cons_of_tokens hus
    have enough : (e :: es).length ≤ vs.length + 1 := by
      have := length_le_spellOperands e es rest
      rw [← hvs, List.length_map] at this
      omega
    rw [primary, operands_of_begins (hvs ▸ beginsExpression_spellOperands e es _)]
    exact (tooDeep_spellOperands (e :: es) (Nat.lt_of_succ_lt_succ high) enough hvs).bind _
  | group inner, n + 1, rest, ls, high, hls => by
    refine TooDeep.expression (hls ▸ rfl) ?_
    obtain ⟨p, us, rfl, hus⟩ := eq_cons_of_tokens hls
    exact (tooDeep_spell inner (Nat.lt_of_succ_lt_succ high) hus).bind _

theorem tooDeep_spellOperands : ∀ (es : List Expr) {n most : Nat} {rest : List Token} {ls : List Lexeme},
    n < operandsHeight es → es.length ≤ most → tokens ls = spellOperands es rest →
    TooDeep (operandsFrom stop (Grammar.expression stop (levels stop n)) most ls)
  | _, n, 0, _, _, high, enough, _ => by
    rw [List.length_eq_zero_iff.mp (Nat.le_zero.mp enough)] at high
    exact absurd high (Nat.not_lt_zero n)
  | [], n, _, _, _, high, _, _ => absurd high (Nat.not_lt_zero n)
  | [e], n, most + 1, rest, ls, high, _, hls => by
    rw [operandsHeight, operandsHeight, Nat.max_zero] at high
    exact (tooDeep_spell e high hls).bind _
  | e :: e' :: es, n, most + 1, rest, ls, high, enough, hls => by
    by_cases first : n < e.height
    · exact (tooDeep_spell e first hls).bind _
    -- the first operand is read, and it is one of the others that is too high
    · obtain ⟨p, us, hus, hread⟩ := read_spell e (Nat.le_of_not_lt first) hls
      rw [operandsHeight] at high
      rw [operandsFrom, hread, ok_bind]
      exact (tooDeep_spellOperands (e' :: es) (by omega) (Nat.le_of_succ_le_succ enough) hus).bind _

end

end Expr

/-! ## Texts -/

namespace Expr

theorem derivable_spell {e : Expr} (room : e.height ≤ nestingLimit) : Derivable nestingLimit (e.spell []) e :=
  ⟨0, derives_spell e (by omega) nofun⟩

theorem tooDeep_parse {cs : List Char} {e : Expr} (h : Scans cs (e.spell []))
    (high : nestingLimit < e.height) : Grammar.TooDeep (parse (String.ofList cs)) := by
  obtain ⟨ls, hls, tokens⟩ := h 0
  rw [parse, String.toList_ofList, hls, ok_bind]
  exact (tooDeep_spell e high tokens).bind _

/-- A well-formed expression whose numbers can be read back reads as itself from its text exactly if it is no
higher than the limit on nesting, and fails for its nesting otherwise. What a text reads as is well-formed. -/
theorem parse_toString :
    (∀ e : Expr, e.WellFormed → (∀ x ∈ e.literals, readFloat? (Layout.plain.write x) = some x) →
      (parse (toString e) = .ok e ↔ e.height ≤ nestingLimit) ∧
        (nestingLimit < e.height → ∃ position cause, parse (toString e) = .error ⟨position, cause⟩ ∧
          cause.message = "expression nested too deeply")) ∧
      ∀ source e, parse source = .ok e → e.WellFormed := by
  refine ⟨fun e named hread => ?_, fun _ _ h => wellFormed_of_parse h⟩
  have scans : Scans e.print (e.spell []) := by
    rw [← List.append_nil e.print]
    exact scans_print e named hread .nil .nil
  have beyond : nestingLimit < e.height → Grammar.TooDeep (parse (toString e)) := tooDeep_parse scans
  refine ⟨⟨fun h => ?_, fun room => parse_of_scans scans (derivable_spell room)⟩, fun high => ?_⟩
  · by_contra high
    obtain ⟨position, failed⟩ := beyond (Nat.lt_of_not_le high)
    rw [h] at failed
    cases failed
  · obtain ⟨position, failed⟩ := beyond high
    exact ⟨position, .nestedTooDeeply, failed, rfl⟩

/-- `add(1.5, sin((z)))` reads as what it was printed from, and `z` in 256 parentheses is too deep. -/
theorem parse_toString_sum :
    parse "add(1.5, sin((z)))" = .ok (call "add" [literal 1.5, call "sin" [group leaf]]) ∧
      ∃ position cause, parse (toString (group^[256] leaf)) = .error ⟨position, cause⟩ ∧
        cause.message = "expression nested too deeply" := by
  constructor
  · have text : toString (call "add" [literal 1.5, call "sin" [group leaf]]) = "add(1.5, sin((z)))" := by
      decide +kernel
    rw [← text]
    exact (parse_toString.1 _ (by decide +kernel) (by decide +kernel)).1.mpr (by decide)
  · exact (parse_toString.1 _ (by decide +kernel) (by decide +kernel)).2 (by decide +kernel)

end Expr

end Argand
