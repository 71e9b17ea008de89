import Mathlib.Data.List.Forall2
import Argand.Proofs.Expr.Prediction

/-!
# Readers and places

A reader looks at tokens. It takes the place of a lexeme, or of the end of the text, only to blame it. So where the
lexemes of a text and its end are moved, by whatever function of their places, a reader does as before, and what it
blames is moved with the rest (`Carries`). There is a lemma for each way to put readers together and then one for
each reader, as in `Predictive`; the stacks of readers are related one by one. `Expr.ofLexemes_move` says the same of
whole expressions.
-/

namespace Argand

/-- The same token at another place. -/
def Lexeme.move (f : Nat → Nat) (l : Lexeme) : Lexeme :=
  { l with position := f l.position }

/-- The same failure at another place. -/
def SyntaxError.move (f : Nat → Nat) (err : SyntaxError) : SyntaxError :=
  { err with position := f err.position }

namespace Grammar

variable {α β : Type} {f : Nat → Nat} {stop : Nat}

/-- An outcome of a reader with all places moved. -/
def moveOutcome (f : Nat → Nat) : Except SyntaxError (α × List Lexeme) → Except SyntaxError (α × List Lexeme)
  | .ok (a, rest) => .ok (a, rest.map (Lexeme.move f))
  | .error err => .error (err.move f)

/-- With lexemes that are moved, `read'` does what `read` does. -/
def Carries (f : Nat → Nat) (read read' : Reader α) : Prop :=
  ∀ ls, read' (ls.map (Lexeme.move f)) = moveOutcome f (read ls)

/-! ## Readers put together -/

theorem fail_move (ls : List Lexeme) (cause : SyntaxCause) :
    (fail (f stop) (ls.map (Lexeme.move f)) cause : Except SyntaxError (α × List Lexeme)) =
      moveOutcome f (fail stop ls cause) := by
  cases ls <;> rfl

/-- One reader behind another. -/
theorem Carries.bind {read read' : Reader α} (next next' : α → Reader β) (hread : Carries f read read')
    (hnext : ∀ a, Carries f (next a) (next' a)) :
    Carries f (fun ls => read ls >>= fun x => next x.1 x.2) (fun ls => read' ls >>= fun x => next' x.1 x.2) := by
  intro ls
  dsimp only
  rw [hread ls]
  cases read ls with
  | error err => rfl
  | ok x => exact hnext x.1 x.2

/-- A reader whose result is put to use. -/
theorem Carries.map {read read' : Reader α} (g : α → β) (hread : Carries f read read') :
    Carries f (fun ls => read ls >>= fun x => .ok (g x.1, x.2)) (fun ls => read' ls >>= fun x => .ok (g x.1, x.2)) :=
  hread.bind (fun a ls => .ok (g a, ls)) (fun a ls => .ok (g a, ls)) fun _ _ => rfl

/-! ## Chains -/

/-- Whether a chain goes on does not depend on places. -/
def MovesSign (f : Nat → Nat) (operation? : List Lexeme → Option (String × List Lexeme)) : Prop :=
  ∀ ls, operation? (ls.map (Lexeme.move f)) = (operation? ls).map fun x => (x.1, x.2.map (Lexeme.move f))

theorem termOperation?_move : MovesSign f termOperation? := by
  rintro (_ | ⟨⟨token, p⟩, ls⟩)
  · rfl
  · cases token <;> rfl

theorem operandOperation?_move : MovesSign f operandOperation? := by
  rintro (_ | ⟨⟨token, p⟩, ls⟩)
  · rfl
  · cases token <;> rfl

section Chains

variable {operation? : List Lexeme → Option (String × List Lexeme)} {stack stack' : List (Reader Expr)}

theorem top_carries (h : List.Forall₂ (Carries f) stack stack') :
    Carries f (top stop stack) (top (f stop) stack') := by
  cases h with
  | nil => exact fun ls => fail_move ls .nestedTooDeeply
  | cons first _ => exact first

theorem chainFrom_carries (sign : MovesSign f operation?) (h : List.Forall₂ (Carries f) stack stack') :
    ∀ left, Carries f (chainFrom stop operation? stack left) (chainFrom (f stop) operation? stack' left) := by
  induction h with
  | nil =>
    intro left ls
    unfold chainFrom
    rw [sign ls]
    cases operation? ls with
    | none => rfl
    | some x => exact fail_move x.2 .nestedTooDeeply
  | cons first _ ih =>
    intro left ls
    unfold chainFrom
    rw [sign ls]
    cases operation? ls with
    | none => rfl
    | some x => exact first.bind _ _ (fun right => ih (.call x.1 [left, right])) x.2

theorem chain_carries (sign : MovesSign f operation?) (h : List.Forall₂ (Carries f) stack stack') :
    Carries f (chain stop operation? stack) (chain (f stop) operation? stack') := by
  have others : List.Forall₂ (Carries f) stack.tail stack'.tail := by
    cases h with
    | nil => exact .nil
    | cons _ others => exact others
  exact (top_carries h).bind _ _ (chainFrom_carries sign others)

theorem terms_carries (h : List.Forall₂ (Carries f) stack stack') :
    List.Forall₂ (Carries f) (terms stop stack) (terms (f stop) stack') := by
  induction h with
  | nil => exact .nil
  | cons first others ih => exact .cons (chain_carries operandOperation?_move (.cons first others)) ih

theorem expression_carries (h : List.Forall₂ (Carries f) stack stack') :
    Carries f (expression stop stack) (expression (f stop) stack') :=
  chain_carries termOperation?_move (terms_carries h)

end Chains

/-! ## Operands -/

theorem operandsFrom_carries {read read' : Reader Expr} (hread : Carries f read read') :
    ∀ most, Carries f (operandsFrom stop read most) (operandsFrom (f stop) read' most) := by
  intro most
  induction most with
  | zero => exact fun ls => fail_move ls .expectedCommaOrClosing
  | succ most ih =>
    refine hread.bind (operandsAfter stop (operandsFrom stop read most))
      (operandsAfter (f stop) (operandsFrom (f stop) read' most)) fun first => ?_
    rintro (_ | ⟨⟨token, p⟩, ls⟩)
    · rfl
    · cases token
      case comma => exact ih.map (first :: ·) ls
      all_goals rfl

theorem operands_carries {read read' : Reader Expr} (hread : Carries f read read') :
    Carries f (operands stop read) (operands (f stop) read') := by
  have some (ls : List Lexeme) : operandsFrom (f stop) read' ((ls.map (Lexeme.move f)).length + 1)
      (ls.map (Lexeme.move f)) = moveOutcome f (operandsFrom stop read (ls.length + 1) ls) := by
    rw [List.length_map]
    exact operandsFrom_carries hread (ls.length + 1) ls
  rintro (_ | ⟨⟨token, p⟩, ls⟩)
  · exact some []
  · cases token
    case closing => rfl
    all_goals exact some (⟨_, p⟩ :: ls)

variable {below below' : List (Reader Expr)}

theorem group_carries (h : List.Forall₂ (Carries f) below below') :
    Carries f (fun ls => expression stop below ls >>= fun x => groupAfter stop x.1 x.2)
      (fun ls => expression (f stop) below' ls >>= fun x => groupAfter (f stop) x.1 x.2) := by
  refine (expression_carries h).bind (groupAfter stop) (groupAfter (f stop)) fun inner => ?_
  rintro (_ | ⟨⟨token, p⟩, ls⟩)
  · rfl
  · cases token <;> rfl

theorem primary_carries (h : List.Forall₂ (Carries f) below below') :
    Carries f (primary stop below) (primary (f stop) below') := by
  rintro (_ | ⟨⟨token, p⟩, ls⟩)
  · rfl
  · cases token
    case name text =>
      rcases ls with _ | ⟨⟨token, q⟩, ls⟩
      · rfl
      · cases token
        case opening => exact (operands_carries (expression_carries h)).map (Expr.call text) ls
        all_goals rfl
    case opening => exact group_carries h ls
    all_goals rfl

theorem power_carries (h : List.Forall₂ (Carries f) below below') :
    Carries f (power stop below) (power (f stop) below') := by
  refine (primary_carries h).bind (powerAfter (top stop below)) (powerAfter (top (f stop) below')) fun base => ?_
  rintro (_ | ⟨⟨token, p⟩, ls⟩)
  · rfl
  · cases token
    case power => exact (top_carries h).map (fun exponent => Expr.call "pow" [base, exponent]) ls
    all_goals rfl

theorem signed_carries (h : List.Forall₂ (Carries f) below below') :
    Carries f (signed stop below) (signed (f stop) below') := by
  rintro (_ | ⟨⟨token, p⟩, ls⟩)
  · exact power_carries h []
  · cases token
    case minus => exact (top_carries h).map (fun operand => Expr.call "negate" [operand]) ls
    case plus => exact top_carries h ls
    all_goals exact power_carries h (⟨_, p⟩ :: ls)

theorem levels_carries (f : Nat → Nat) (stop : Nat) :
    ∀ n, List.Forall₂ (Carries f) (levels stop n) (levels (f stop) n)
  | 0 => .nil
  | n + 1 => .cons (signed_carries (levels_carries f stop n)) (levels_carries f stop n)

end Grammar

open Grammar

/-- Lexemes that are moved, with their end, read as the same expression, or fail at the place that the place of the
failure is moved to. -/
theorem Expr.ofLexemes_move (f : Nat → Nat) (stop : Nat) (ls : List Lexeme) :
    ofLexemes (f stop) (ls.map (Lexeme.move f)) = (ofLexemes stop ls).mapError (SyntaxError.move f) := by
  rw [ofLexemes, ofLexemes, expression_carries (levels_carries f stop nestingLimit) ls]
  cases expression stop (levels stop nestingLimit) ls with
  | error err => rfl
  | ok x =>
    obtain ⟨e, rest⟩ := x
    cases rest <;> rfl

end Argand
