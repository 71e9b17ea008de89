import Argand.Proofs.Expr.Soundness

/-!
# A derivation is a reading

What the rules of `Derives` derive, the readers of `Grammar` read, provided that what follows cannot
go on with the phrase : a reader takes as much as it can, while a rule may stop anywhere. In a
derivation of a whole text that proviso always holds.

The reader of a chain has no result before the chain ends. So past a derived part of a chain the
statement is that the reader is now going on with the chain, with the levels that are left
(`Derives.Term.complete`, `Derives.Expression.complete`).

Together with soundness, `Expr.ofLexemes_eq_ok_iff` : the lexemes read as an expression if and only if
their tokens derive it.
-/

namespace Argand.Grammar

variable {stop limit : Nat}

/-! ## What may follow a phrase -/

/-- Whether tokens begin with one that a term before them cannot end at. -/
def continuesTerm : List Token → Bool
  | .times :: _ => true
  | .divide :: _ => true
  | .power :: _ => true
  | ts => Derives.opensOperand ts

theorem eq_cons_of_tokens {ls : List Lexeme} {t : Token} {ts : List Token}
    (h : tokens ls = t :: ts) : ∃ p ls', ls = ⟨t, p⟩ :: ls' ∧ tokens ls' = ts := by
  obtain ⟨⟨token, p⟩, ls', rfl, rfl, rfl⟩ := List.map_eq_cons_iff.1 h
  exact ⟨p, ls', rfl, rfl⟩

theorem head?_ne_power {ts : List Token} (h : continuesTerm ts = false) :
    ts.head? ≠ some .power := by
  rcases ts with _ | ⟨token, ts⟩
  · rintro ⟨⟩
  · rintro ⟨⟩
    cases h

theorem head?_ne_power_of_opens {ts : List Token} (h : Derives.opensOperand ts = true) :
    ts.head? ≠ some .power := by
  rcases ts with _ | ⟨token, ts⟩
  · rintro ⟨⟩
  · rintro ⟨⟩
    cases h

theorem operandOperation?_of_opens {ls : List Lexeme}
    (h : Derives.opensOperand (tokens ls) = true) :
    operandOperation? ls = some ("multiply", ls) := by
  rcases ls with _ | ⟨⟨token, p⟩, ls⟩
  · cases h
  · cases token <;> simp_all [Derives.opensOperand, operandOperation?]

theorem operandOperation?_eq_none {ls : List Lexeme} (h : continuesTerm (tokens ls) = false) :
    operandOperation? ls = none := by
  rcases ls with _ | ⟨⟨token, p⟩, ls⟩
  · rfl
  · cases token <;> simp_all [continuesTerm, Derives.opensOperand, operandOperation?]

/-! ## Steps of the readers -/

theorem top_levels {d : Nat} (room : d + 1 ≤ limit) :
    top stop (levels stop (limit - d)) = signed stop (levels stop (limit - (d + 1))) := by
  rw [show limit - d = limit - (d + 1) + 1 by omega]
  rfl

theorem top_terms (stack : List (Reader Expr)) : top stop (terms stop stack) = term stop stack := by
  cases stack with
  | cons read stack => rfl
  | nil =>
    funext ls
    cases ls <;> rfl

/-- A chain goes on with an operation by its next operand. -/
theorem chainFrom_next {operation? : List Lexeme → Option (String × List Lexeme)}
    {stack : List (Reader Expr)} {op : String} {left : Expr} {ls us : List Lexeme}
    (hop : operation? ls = some (op, us)) :
    chainFrom stop operation? stack left ls =
      top stop stack us >>= fun x => chainFrom stop operation? stack.tail (.call op [left, x.1]) x.2 := by
  rw [chainFrom, hop]
  cases stack with
  | nil => cases us <;> rfl
  | cons read stack => rfl

/-- What goes on with a chain after an operand behind its sign. -/
theorem chainFrom_join {operation? : List Lexeme → Option (String × List Lexeme)}
    {stack : List (Reader Expr)} {op : String} {left right : Expr} {ls us rest : List Lexeme}
    (hop : operation? ls = some (op, us)) (hread : top stop stack us = .ok (right, rest)) :
    chainFrom stop operation? stack left ls =
      chainFrom stop operation? (stack.drop 1) (.call op [left, right]) rest := by
  rw [chainFrom_next hop, hread, ok_bind, List.drop_one]

theorem chainFrom_end {operation? : List Lexeme → Option (String × List Lexeme)}
    {stack : List (Reader Expr)} {e : Expr} {ls : List Lexeme} (hop : operation? ls = none) :
    chainFrom stop operation? stack e ls = .ok (e, ls) := by
  cases stack <;> rw [chainFrom, hop]

theorem term_join {d n : Nat} {op : String} {left right : Expr} {ls us vs rest : List Lexeme}
    (before : term stop (levels stop (limit - d)) ls =
      chainFrom stop operandOperation? (levels stop (limit - (d + (n + 1)))) left us)
    (hop : operandOperation? us = some (op, vs))
    (next : top stop (levels stop (limit - (d + (n + 1)))) vs = .ok (right, rest)) :
    term stop (levels stop (limit - d)) ls =
      chainFrom stop operandOperation? (levels stop (limit - (d + (n + 1 + 1))))
        (.call op [left, right]) rest := by
  rw [before, chainFrom_join hop next, drop_levels, Nat.sub_sub, Nat.add_assoc]

theorem expression_join {d n : Nat} {op : String} {left right : Expr} {ls us vs rest : List Lexeme}
    (before : expression stop (levels stop (limit - d)) ls =
      chainFrom stop termOperation? (terms stop (levels stop (limit - (d + (n + 1))))) left us)
    (hop : termOperation? us = some (op, vs))
    (next : term stop (levels stop (limit - (d + (n + 1)))) vs = .ok (right, rest)) :
    expression stop (levels stop (limit - d)) ls =
      chainFrom stop termOperation? (terms stop (levels stop (limit - (d + (n + 1 + 1)))))
        (.call op [left, right]) rest := by
  rw [← top_terms] at next
  rw [before, chainFrom_join hop next, drop_terms, drop_levels, Nat.sub_sub, Nat.add_assoc]

theorem signed_of_opens {below : List (Reader Expr)} {ls : List Lexeme}
    (h : Derives.opensOperand (tokens ls) = true) : signed stop below ls = power stop below ls := by
  rcases ls with _ | ⟨⟨token, p⟩, ls⟩
  · cases h
  · cases token <;> simp_all [Derives.opensOperand, signed]

theorem power_of_primary {below : List (Reader Expr)} {ls rest : List Lexeme} {e : Expr}
    (hread : primary stop below ls = .ok (e, rest)) (hrest : (tokens rest).head? ≠ some .power) :
    power stop below ls = .ok (e, rest) := by
  rw [power, hread, ok_bind]
  rcases rest with _ | ⟨⟨token, p⟩, rest⟩
  · rfl
  · cases token <;> simp_all

theorem primary_name {below : List (Reader Expr)} {text : String} {p : Nat} {ls : List Lexeme}
    (uncalled : (tokens ls).head? ≠ some .opening) :
    primary stop below (⟨.name text, p⟩ :: ls) = .ok (.symbol text, ls) := by
  rcases ls with _ | ⟨⟨token, q⟩, ls⟩
  · rfl
  · cases token <;> simp_all [primary]

theorem operands_of_begins {read : Reader Expr} {ls : List Lexeme}
    (h : Derives.beginsExpression (tokens ls) = true) :
    operands stop read ls = operandsFrom stop read (ls.length + 1) ls := by
  rcases ls with _ | ⟨⟨token, p⟩, ls⟩
  · cases h
  · cases token <;> simp_all [Derives.beginsExpression, Derives.opensOperand, operands]

end Argand.Grammar

namespace Argand.Derives

open Grammar

variable {limit : Nat}

mutual

/-- The readers go along with a derivation : past an expression of `n + 1` terms they are where a
chain goes on, with the terms that are left. -/
theorem Expression.complete (stop : Nat) {d n ts e rest} :
    Expression limit d n ts e rest → continuesTerm rest = false → ∀ ls, tokens ls = ts →
      ∃ ls', tokens ls' = rest ∧ expression stop (levels stop (limit - d)) ls =
        chainFrom stop termOperation? (terms stop (levels stop (limit - (d + (n + 1))))) e ls'
  | .one first, hrest, ls, hls => by
    obtain ⟨ls', rfl, hread⟩ := first.complete stop (head?_ne_power hrest) ls hls
    rw [chainFrom_end (operandOperation?_eq_none hrest)] at hread
    refine ⟨ls', rfl, ?_⟩
    rw [expression, chain, top_terms, hread, ok_bind, ← List.drop_one, drop_terms, drop_levels,
      Nat.sub_sub]
  | .plus before next, hrest, ls, hls => by
    obtain ⟨us, hus, hbefore⟩ := before.complete stop rfl ls hls
    obtain ⟨p, us, rfl, hus'⟩ := eq_cons_of_tokens hus
    obtain ⟨ls', rfl, hnext⟩ := next.complete stop (head?_ne_power hrest) us hus'
    rw [chainFrom_end (operandOperation?_eq_none hrest)] at hnext
    exact ⟨ls', rfl, expression_join hbefore rfl hnext⟩
  | .minus before next, hrest, ls, hls => by
    obtain ⟨us, hus, hbefore⟩ := before.complete stop rfl ls hls
    obtain ⟨p, us, rfl, hus'⟩ := eq_cons_of_tokens hus
    obtain ⟨ls', rfl, hnext⟩ := next.complete stop (head?_ne_power hrest) us hus'
    rw [chainFrom_end (operandOperation?_eq_none hrest)] at hnext
    exact ⟨ls', rfl, expression_join hbefore rfl hnext⟩

theorem Term.complete (stop : Nat) {d n ts e rest} :
    Term limit d n ts e rest → rest.head? ≠ some .power → ∀ ls, tokens ls = ts →
      ∃ ls', tokens ls' = rest ∧ term stop (levels stop (limit - d)) ls =
        chainFrom stop operandOperation? (levels stop (limit - (d + (n + 1)))) e ls'
  | .one first, hrest, ls, hls => by
    obtain ⟨ls', rfl, hread⟩ := first.complete stop hrest ls hls
    refine ⟨ls', rfl, ?_⟩
    rw [term, chain, hread, ok_bind, ← List.drop_one, drop_levels, Nat.sub_sub]
  | .times before next, hrest, ls, hls => by
    obtain ⟨us, hus, hbefore⟩ := before.complete stop nofun ls hls
    obtain ⟨p, us, rfl, hus'⟩ := eq_cons_of_tokens hus
    obtain ⟨ls', rfl, hnext⟩ := next.complete stop hrest us hus'
    exact ⟨ls', rfl, term_join hbefore rfl hnext⟩
  | .divide before next, hrest, ls, hls => by
    obtain ⟨us, hus, hbefore⟩ := before.complete stop nofun ls hls
    obtain ⟨p, us, rfl, hus'⟩ := eq_cons_of_tokens hus
    obtain ⟨ls', rfl, hnext⟩ := next.complete stop hrest us hus'
    exact ⟨ls', rfl, term_join hbefore rfl hnext⟩
  | .juxtaposed before opens next, hrest, ls, hls => by
    obtain ⟨us, hus, hbefore⟩ := before.complete stop (head?_ne_power_of_opens opens) ls hls
    obtain ⟨ls', rfl, hnext⟩ := next.complete stop hrest us hus
    exact ⟨ls', rfl, term_join hbefore (operandOperation?_of_opens (hus ▸ opens)) hnext⟩

theorem Signed.complete (stop : Nat) {d ts e rest} :
    Signed limit d ts e rest → rest.head? ≠ some .power → ∀ ls, tokens ls = ts →
      ∃ ls', tokens ls' = rest ∧ top stop (levels stop (limit - d)) ls = .ok (e, ls')
  | .minus room operand, hrest, ls, hls => by
    obtain ⟨p, us, rfl, hus⟩ := eq_cons_of_tokens hls
    obtain ⟨ls', rfl, hread⟩ := operand.complete stop hrest us hus
    refine ⟨ls', rfl, ?_⟩
    rw [top_levels room, signed, hread, ok_bind]
  | .plus room operand, hrest, ls, hls => by
    obtain ⟨p, us, rfl, hus⟩ := eq_cons_of_tokens hls
    obtain ⟨ls', rfl, hread⟩ := operand.complete stop hrest us hus
    refine ⟨ls', rfl, ?_⟩
    rw [top_levels room, signed, hread]
  | .power room inside, hrest, ls, hls => by
    obtain ⟨ls', rfl, hread⟩ := inside.complete stop hrest ls hls
    refine ⟨ls', rfl, ?_⟩
    rw [top_levels room, signed_of_opens (hls ▸ inside.opens), hread]

theorem Power.complete (stop : Nat) {d ts e rest} :
    Power limit d ts e rest → rest.head? ≠ some .power → ∀ ls, tokens ls = ts →
      ∃ ls', tokens ls' = rest ∧ power stop (levels stop (limit - d)) ls = .ok (e, ls')
  | .base only, hrest, ls, hls => by
    obtain ⟨ls', rfl, hread⟩ := only.complete stop ls hls
    exact ⟨ls', rfl, power_of_primary hread hrest⟩
  | .raised below above, hrest, ls, hls => by
    obtain ⟨us, hus, hbelow⟩ := below.complete stop ls hls
    obtain ⟨p, us, rfl, hus'⟩ := eq_cons_of_tokens hus
    obtain ⟨ls', rfl, habove⟩ := above.complete stop hrest us hus'
    refine ⟨ls', rfl, ?_⟩
    rw [power, hbelow, ok_bind]
    dsimp only
    rw [habove, ok_bind]

theorem Primary.complete (stop : Nat) {d ts e rest} :
    Primary limit d ts e rest → ∀ ls, tokens ls = ts →
      ∃ ls', tokens ls' = rest ∧ primary stop (levels stop (limit - d)) ls = .ok (e, ls')
  | .number, ls, hls => by
    obtain ⟨p, ls', rfl, hls'⟩ := eq_cons_of_tokens hls
    exact ⟨ls', hls', rfl⟩
  | .name uncalled, ls, hls => by
    obtain ⟨p, ls', rfl, rfl⟩ := eq_cons_of_tokens hls
    exact ⟨ls', rfl, primary_name uncalled⟩
  | .call inside, ls, hls => by
    obtain ⟨p, us, rfl, hus⟩ := eq_cons_of_tokens hls
    obtain ⟨q, us, rfl, hus'⟩ := eq_cons_of_tokens hus
    obtain ⟨ls', rfl, hread⟩ := inside.complete stop us hus'
    refine ⟨ls', rfl, ?_⟩
    rw [primary, hread, ok_bind]
  | .group inside, ls, hls => by
    obtain ⟨p, us, rfl, hus⟩ := eq_cons_of_tokens hls
    obtain ⟨ls₁, hls₁, hread⟩ := inside.complete stop rfl us hus
    obtain ⟨q, ls', rfl, rfl⟩ := eq_cons_of_tokens hls₁
    refine ⟨ls', rfl, ?_⟩
    rw [primary, hread, chainFrom_end rfl, ok_bind]

theorem Operands.complete (stop : Nat) {d ts es rest} :
    Operands limit d ts es rest → ∀ ls, tokens ls = ts →
      ∃ ls', tokens ls' = rest ∧
        operands stop (expression stop (levels stop (limit - d))) ls = .ok (es, ls')
  | .none, ls, hls => by
    obtain ⟨p, ls', rfl, hls'⟩ := eq_cons_of_tokens hls
    exact ⟨ls', hls', rfl⟩
  | .some inside, ls, hls => by
    have hlen := inside.length_add_le
    rw [← hls, List.length_map] at hlen
    obtain ⟨ls', hls', hread⟩ := inside.complete stop (ls.length + 1) ls (by omega) hls
    refine ⟨ls', hls', ?_⟩
    rw [operands_of_begins (hls ▸ inside.begins), hread]

theorem Separated.complete (stop : Nat) {d ts es rest} :
    Separated limit d ts es rest → ∀ most ls, es.length ≤ most → tokens ls = ts →
      ∃ ls', tokens ls' = rest ∧
        operandsFrom stop (expression stop (levels stop (limit - d))) most ls = .ok (es, ls')
  | .last only, most, ls, hmost, hls => by
    obtain ⟨most, rfl⟩ := Nat.exists_eq_succ_of_ne_zero (Nat.ne_of_gt hmost)
    obtain ⟨us, hus, hread⟩ := only.complete stop rfl ls hls
    obtain ⟨p, ls', rfl, rfl⟩ := eq_cons_of_tokens hus
    refine ⟨ls', rfl, ?_⟩
    rw [operandsFrom, hread, chainFrom_end rfl, ok_bind]
  | .more first others, most, ls, hmost, hls => by
    obtain ⟨most, rfl⟩ := Nat.exists_eq_succ_of_ne_zero (Nat.ne_zero_of_lt hmost)
    obtain ⟨us, hus, hread⟩ := first.complete stop rfl ls hls
    obtain ⟨p, us, rfl, hus'⟩ := eq_cons_of_tokens hus
    obtain ⟨ls', rfl, hothers⟩ := others.complete stop most us (Nat.le_of_succ_le_succ hmost) hus'
    refine ⟨ls', rfl, ?_⟩
    rw [operandsFrom, hread, chainFrom_end rfl, ok_bind]
    dsimp only
    rw [hothers, ok_bind]

end

end Argand.Derives

namespace Argand

/-! ## Whole texts -/

theorem Derivable.read {limit : Nat} {ts : List Token} {e : Expr} (h : Derivable limit ts e)
    (stop : Nat) {ls : List Lexeme} (hls : Grammar.tokens ls = ts) :
    Grammar.expression stop (Grammar.levels stop limit) ls = .ok (e, []) := by
  obtain ⟨n, h⟩ := h
  obtain ⟨rest, hrest, hread⟩ := h.complete stop rfl ls hls
  obtain rfl := List.map_eq_nil_iff.1 hrest
  rw [← Nat.sub_zero limit, hread, Grammar.chainFrom_end rfl]

/-- The grammar is unambiguous. -/
theorem Derivable.unique {limit : Nat} {ts : List Token} {e e' : Expr} (h : Derivable limit ts e)
    (h' : Derivable limit ts e') : e = e' := by
  have hls : Grammar.tokens (ts.map (⟨·, 0⟩)) = ts := by
    rw [Grammar.tokens, List.map_map]
    exact List.map_id ts
  have hread := h.read 0 hls
  rw [h'.read 0 hls] at hread
  exact (congrArg Prod.fst (Except.ok.inj hread)).symm

theorem Expr.ofLexemes_eq_ok_iff {stop : Nat} {ls : List Lexeme} {e : Expr} :
    Expr.ofLexemes stop ls = .ok e ↔ Derivable nestingLimit (Grammar.tokens ls) e := by
  constructor
  · intro h
    rw [Expr.ofLexemes] at h
    obtain ⟨⟨e', rest⟩, hread, h⟩ := bind_eq_ok.1 h
    dsimp only at h
    split at h
    · cases h
      exact Grammar.expression_sound (Nat.zero_add _) (fun m _ => Grammar.signed_sound m) hread
    · exact absurd h Grammar.fail_ne_ok
  · intro h
    rw [Expr.ofLexemes, h.read stop rfl, ok_bind]

theorem Expr.parse_eq_ok_iff {source : String} {e : Expr} :
    Expr.parse source = .ok e ↔ ∃ ls, scan 0 source.toList = .ok ls ∧
      Derivable nestingLimit (Grammar.tokens ls) e := by
  simp only [Expr.parse, bind_eq_ok, Expr.ofLexemes_eq_ok_iff]

/-- Lexemes read as an expression exactly if their tokens derive it within the limit on nesting, and
they derive no other. -/
theorem Expr.ofLexemes_exact (stop : Nat) (ls : List Lexeme) (e : Expr) :
    (Expr.ofLexemes stop ls = .ok e ↔ Derivable nestingLimit (ls.map Lexeme.token) e) ∧
      (Derivable nestingLimit (ls.map Lexeme.token) e →
        ∀ e', Derivable nestingLimit (ls.map Lexeme.token) e' → e' = e) :=
  ⟨Expr.ofLexemes_eq_ok_iff, fun h _ h' => h'.unique h⟩

end Argand
