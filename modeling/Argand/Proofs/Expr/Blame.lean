import Argand.Proofs.Expr.Pieces
import Argand.Proofs.Expr.Prediction
import Mathlib.Control.Monad.Basic

/-!
# What a failure blames

A text that is no expression is blamed for the first thing in it that cannot be in one (`Expr.parse_blames`).
If the text is not cut into lexemes, that is the first flaw. Otherwise, if levels are not what lacks, it is
the first lexeme that no expression has behind those before it, or the end of the text (`Impossible`). There
the limit on nesting plays no part : the lexemes before it begin an expression within the limit, and together
with it they begin none within any limit.
-/

namespace Argand

/-- Some continuation of the tokens is an expression that nests no deeper than the limit. -/
def Viable (limit : Nat) (ts : List Token) : Prop :=
  ∃ more e, Derivable limit (ts ++ more) e

/-- `Impossible stop ls p` : the place `p` is that of the first lexeme that cannot follow those before it, or
it is the end of the text, where an expression has to go on. -/
inductive Impossible (stop : Nat) (ls : List Lexeme) : Nat → Prop
  | lexeme {before after : List Lexeme} {l : Lexeme} (split : ls = before ++ l :: after)
      (viable : Viable nestingLimit (before.map Lexeme.token))
      (hopeless : ∀ limit, ¬Viable limit ((before ++ [l]).map Lexeme.token)) : Impossible stop ls l.position
  | stop (viable : Viable nestingLimit (ls.map Lexeme.token))
      (incomplete : ∀ limit e, ¬Derivable limit (ls.map Lexeme.token) e) : Impossible stop ls stop

namespace Grammar

variable {stop limit : Nat}

/-- What lacks no levels does not depend on how many there are. -/
theorem Predictive.agree {α : Type} {P : List Token → α → List Token → Prop} {read read' : Reader α}
    {ls : List Lexeme} (h : Predictive stop P read read' ls) :
    read' ls = read ls ∨ ∃ p, read ls = .error ⟨p, .nestedTooDeeply⟩ := by
  cases hread : read ls with
  | ok x =>
    obtain ⟨us, rfl, hus⟩ := h.ok hread
    exact .inl (hus _ rfl)
  | error err =>
    by_cases deep : err.cause = .nestedTooDeeply
    · exact .inr ⟨err.position, congrArg Except.error (congrArg (SyntaxError.mk err.position) deep)⟩
    · obtain ⟨us, rest, rfl, stuck⟩ := h.error hread deep
      exact .inl (stuck.hopeless rest rfl)

theorem predictive_levels (stop : Nat) {n n' : Nat} (hn : n ≤ n') (ls : List Lexeme) :
    Predictive stop (fun ts e rest => ∃ m, Derives.Expression n 0 m ts e rest)
      (expression stop (levels stop n)) (expression stop (levels stop n')) ls :=
  expression_predictive (Nat.zero_add n) hn (fun m _ => signed_predictive m) ls

/-- Lexemes that are not read as an expression, and lack no levels, are none within any limit. -/
theorem not_derivable (stop n : Nat) {ls : List Lexeme}
    (shallow : ∀ p, expression stop (levels stop n) ls ≠ .error ⟨p, .nestedTooDeeply⟩)
    (unread : ∀ e, expression stop (levels stop n) ls ≠ .ok (e, [])) (limit : Nat) (e : Expr) :
    ¬Derivable limit (tokens ls) e := by
  intro derived
  have hread := derived.read stop rfl
  rcases Nat.le_total n limit with hn | hn
  · rcases (predictive_levels stop hn ls).agree with same | ⟨p, deep⟩
    · exact unread e (same.symm.trans hread)
    · exact shallow p deep
  · rcases (predictive_levels stop hn ls).agree with same | ⟨p, deep⟩
    · exact unread e (same.trans hread)
    · rw [hread] at deep
      cases deep

theorem viable_of_promising {ts : List Token}
    (h : Promising (fun ts e rest => ∃ m, Derives.Expression limit 0 m ts e rest) ts) : Viable limit ts := by
  obtain ⟨more, hmore⟩ := h
  obtain ⟨e, m, derived⟩ := hmore []
  rw [List.append_nil] at derived
  exact ⟨more, e, m, derived⟩

/-- The next lexeme of `rest`, or the end of the text, is impossible behind `us` if whatever begins with it is
no expression. -/
theorem impossible_of_hopeless {us rest : List Lexeme} (viable : Viable nestingLimit (tokens us))
    (hopeless : ∀ rest', rest'.head? = rest.head? → ∀ limit e, ¬Derivable limit (tokens (us ++ rest')) e) :
    Impossible stop (us ++ rest) (place stop rest) := by
  cases rest with
  | nil =>
    rw [List.append_nil]
    refine .stop viable fun limit e => ?_
    have := hopeless [] rfl limit e
    rwa [List.append_nil] at this
  | cons l after =>
    refine .lexeme rfl viable fun limit ⟨more, e, derived⟩ => ?_
    have refused := hopeless (l :: more.map (⟨·, 0⟩)) rfl limit e
    have spelled : tokens (us ++ l :: more.map (⟨·, 0⟩)) = (us ++ [l]).map Lexeme.token ++ more := by
      simp [tokens, Function.comp_def]
    rw [spelled] at refused
    exact refused derived

end Grammar

namespace Expr

open Grammar

/-- If levels are not what lacks, what is blamed is impossible. -/
theorem impossible_of_ofLexemes {stop : Nat} {ls : List Lexeme} {err : SyntaxError}
    (failed : ofLexemes stop ls = .error err) (shallow : err.cause ≠ .nestedTooDeeply) :
    Impossible stop ls err.position := by
  have predictive := predictive_levels stop (Nat.le_refl nestingLimit) ls
  rw [ofLexemes] at failed
  cases hread : Grammar.expression stop (levels stop nestingLimit) ls with
  | error err' =>
    rw [hread] at failed
    cases failed
    obtain ⟨us, rest, rfl, stuck⟩ := predictive.error hread shallow
    rw [stuck.blames]
    refine impossible_of_hopeless (viable_of_promising stuck.promising) fun rest' hrest' => ?_
    refine not_derivable stop nestingLimit (fun p deep => ?_) fun e => ?_
    · rw [stuck.hopeless rest' hrest'] at deep
      cases deep
      exact shallow rfl
    · rw [stuck.hopeless rest' hrest']
      rintro ⟨⟩
  | ok x =>
    obtain ⟨e, rest⟩ := x
    obtain ⟨us, rfl, hus⟩ := predictive.ok hread
    obtain ⟨m, derived⟩ := expression_sound (Nat.zero_add _) (fun m _ => signed_sound m) hread
    rw [tokens, List.map_append] at derived
    rw [hread, ok_bind] at failed
    cases rest with
    | nil => cases failed
    | cons l rest =>
      cases failed
      refine @impossible_of_hopeless stop us (l :: rest) ?_ fun rest' hrest' => ?_
      · exact ⟨[], e, m, derived.replace .nil⟩
      · refine not_derivable stop nestingLimit (fun p => ?_) fun e' => ?_
        · rw [hus rest' hrest']
          rintro ⟨⟩
        · rw [hus rest' hrest']
          rintro ⟨⟩
          cases hrest'

/-- A text that does not read as an expression is cut into lexemes, and blamed for the first that is
impossible there, or for its end, unless levels are what lacks; or else it is blamed for its first flaw. -/
theorem parse_blames {source : String} {err : SyntaxError} (failed : parse source = .error err) :
    (∃ ls, Lexed 0 source.toList ls (utf8Length source.toList) [] ∧
      (err.cause ≠ .nestedTooDeeply → Impossible (utf8Length source.toList) ls err.position)) ∨
      ∃ ls rest, Lexed 0 source.toList ls err.position rest ∧ Flaw rest err.cause := by
  rw [parse] at failed
  cases hscan : scan 0 source.toList with
  | error err' =>
    rw [hscan] at failed
    cases failed
    exact .inr (scan_eq_error_iff.mp hscan)
  | ok ls =>
    rw [hscan, ok_bind] at failed
    have lexed := scan_eq_ok_iff.mp hscan
    rw [Nat.zero_add] at lexed
    exact .inl ⟨ls, lexed, impossible_of_ofLexemes failed⟩

/-- `f(z, 2^)` is blamed for the parenthesis, and `1e + 2..5 $` for the second number. -/
theorem parse_blames_parenthesis :
    (parse "f(z, 2^)" = .error ⟨7, .expectedOperand⟩ ∧
      ∃ ls, Lexed 0 "f(z, 2^)".toList ls 8 [] ∧ Impossible 8 ls 7) ∧
      parse "1e + 2..5 $" = .error ⟨5, .malformedNumber⟩ ∧
        ∃ ls rest, Lexed 0 "1e + 2..5 $".toList ls 5 rest ∧ Flaw rest .malformedNumber := by
  have operand : parse "f(z, 2^)" = .error ⟨7, .expectedOperand⟩ := by
    have lexemes : scan 0 "f(z, 2^)".toList = .ok [⟨.name "f", 0⟩, ⟨.opening, 1⟩, ⟨.name "z", 2⟩,
        ⟨.comma, 3⟩, ⟨.number 2, 5⟩, ⟨.power, 6⟩, ⟨.closing, 7⟩] := by
      decide +kernel
    rw [parse, lexemes]
    rfl
  have failed : scan 0 "1e + 2..5 $".toList = .error ⟨5, .malformedNumber⟩ := by
    decide +kernel
  have malformed : parse "1e + 2..5 $" = .error ⟨5, .malformedNumber⟩ := by
    rw [parse, failed]
    rfl
  refine ⟨⟨operand, ?_⟩, malformed, ?_⟩
  · rcases parse_blames operand with ⟨ls, lexed, impossible⟩ | ⟨ls, rest, lexed, flaw⟩
    · exact ⟨ls, lexed, impossible nofun⟩
    · cases flaw
  · rcases parse_blames malformed with ⟨ls, lexed, -⟩ | flawed
    · rw [← Nat.zero_add (utf8Length _), ← scan_eq_ok_iff, failed] at lexed
      cases lexed
    · exact flawed

end Expr

end Argand
