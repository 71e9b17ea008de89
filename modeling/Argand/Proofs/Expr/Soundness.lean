import Argand.Proofs.Expr.Derivation
import Argand.Proofs.Outcome

/-!
# A reading is a derivation

What the readers of `Grammar` read, the rules of `Derives` derive, and at the depth that fits : a
stack of `n` readers is entered `n` levels below the limit (`expression_sound`, `signed_sound`).

A reader of signed operands is built from those below it in its stack, so `SignedSound` is proved by
induction on how many there are. In the steps of the induction it is a hypothesis on the readers below,
and goes through terms, expressions, operands of calls, primaries and powers in turn. Terms and
expressions are both chains, and share `chain_sound`.
-/

namespace Argand.Grammar

variable {stop limit : Nat}

/-! ## Stacks of readers -/

theorem fail_ne_ok {α : Type} {ls : List Lexeme} {cause : SyntaxCause} {a : α} :
    fail stop ls cause ≠ .ok a := by
  cases ls <;> simp [fail]

@[simp] theorem drop_levels (n : Nat) : ∀ k, (levels stop n).drop k = levels stop (n - k)
  | 0 => rfl
  | k + 1 => by
    cases n with
    | zero => simp [levels]
    | succ n => rw [levels, List.drop_succ_cons, drop_levels n k, Nat.succ_sub_succ]

theorem getElem?_levels {n k : Nat} {read : Reader Expr} (h : (levels stop n)[k]? = some read) :
    k < n ∧ read = signed stop (levels stop (n - (k + 1))) := by
  rw [← List.head?_drop, drop_levels] at h
  cases hn : n - k with
  | zero => simp [hn, levels] at h
  | succ m =>
    rw [hn, levels, List.head?_cons, Option.some.injEq] at h
    refine ⟨by omega, ?_⟩
    rw [← h, show n - (k + 1) = m by omega]

@[simp] theorem drop_terms (stack : List (Reader Expr)) (k : Nat) :
    (terms stop stack).drop k = terms stop (stack.drop k) := by
  induction k generalizing stack with
  | zero => rfl
  | succ k ih =>
    cases stack with
    | nil => simp [terms]
    | cons read stack => rw [terms, List.drop_succ_cons, List.drop_succ_cons, ih]

theorem getElem?_terms {stack : List (Reader Expr)} {k : Nat} {read : Reader Expr}
    (h : (terms stop stack)[k]? = some read) :
    k < stack.length ∧ read = term stop (stack.drop k) := by
  rw [← List.head?_drop, drop_terms] at h
  cases hs : stack.drop k with
  | nil => simp [hs, terms] at h
  | cons first below =>
    rw [hs, terms, List.head?_cons, Option.some.injEq] at h
    have hlen := congrArg List.length hs
    rw [List.length_drop, List.length_cons] at hlen
    exact ⟨by omega, h.symm⟩

@[simp] theorem length_levels (n : Nat) : (levels stop n).length = n := by
  induction n with
  | zero => rfl
  | succ n ih => rw [levels, List.length_cons, ih]

/-! ## A reading is a derivation -/

/-- The tokens of lexemes. -/
abbrev tokens (ls : List Lexeme) : List Token :=
  ls.map Lexeme.token

/-- If the `k`-th reader of the stack reads an operand of index `n + 1 + k`, and an operand behind its
sign makes a chain longer, then what goes on with a chain reads a chain. -/
theorem chainFrom_sound {operation? : List Lexeme → Option (String × List Lexeme)}
    {Chain : Nat → Expr → List Token → Prop}
    {Operand : Nat → List Token → Expr → List Token → Prop}
    (join : ∀ {n left ls op ls' right rest}, Chain n left (tokens ls) →
      operation? ls = some (op, ls') → Operand (n + 1) (tokens ls') right rest →
      Chain (n + 1) (.call op [left, right]) rest) :
    ∀ (stack : List (Reader Expr)) (n : Nat) {left e : Expr} {ls rest : List Lexeme},
      (∀ k read, stack[k]? = some read → ∀ ls e rest, read ls = .ok (e, rest) →
        Operand (n + 1 + k) (tokens ls) e (tokens rest)) →
      Chain n left (tokens ls) →
      chainFrom stop operation? stack left ls = .ok (e, rest) → ∃ m, Chain m e (tokens rest) := by
  intro stack
  induction stack with
  | nil =>
    intro n left e ls rest _ hleft h
    rw [chainFrom] at h
    split at h
    · obtain ⟨rfl, rfl⟩ := Prod.mk.inj (Except.ok.inj h)
      exact ⟨n, hleft⟩
    · exact absurd h fail_ne_ok
  | cons read stack ih =>
    intro n left e ls rest hstack hleft h
    rw [chainFrom] at h
    split at h
    · obtain ⟨rfl, rfl⟩ := Prod.mk.inj (Except.ok.inj h)
      exact ⟨n, hleft⟩
    · next op ls' hop =>
      obtain ⟨⟨right, us⟩, hread, h⟩ := bind_eq_ok.1 h
      refine ih (n + 1) (fun k read' hk => ?_) (join hleft hop (hstack 0 read rfl _ _ _ hread)) h
      rw [Nat.add_right_comm]
      exact hstack (k + 1) read' hk

/-- If the `k`-th reader of the stack reads an operand of index `k`, a reading of a chain is one. -/
theorem chain_sound {operation? : List Lexeme → Option (String × List Lexeme)}
    {stack : List (Reader Expr)} (Chain : Nat → Expr → List Token → Prop)
    (Operand : Nat → List Token → Expr → List Token → Prop) {ls rest : List Lexeme} {e : Expr}
    (one : ∀ {e rest}, Operand 0 (tokens ls) e rest → Chain 0 e rest)
    (join : ∀ {n left ls op ls' right rest}, Chain n left (tokens ls) →
      operation? ls = some (op, ls') → Operand (n + 1) (tokens ls') right rest →
      Chain (n + 1) (.call op [left, right]) rest)
    (hstack : ∀ k read, stack[k]? = some read → ∀ ls e rest, read ls = .ok (e, rest) →
      Operand k (tokens ls) e (tokens rest))
    (h : chain stop operation? stack ls = .ok (e, rest)) : ∃ m, Chain m e (tokens rest) := by
  rw [chain] at h
  obtain ⟨⟨first, us⟩, hfirst, h⟩ := bind_eq_ok.1 h
  cases stack with
  | nil => exact absurd hfirst fail_ne_ok
  | cons read stack =>
    refine chainFrom_sound join stack 0 (fun k read' hk => ?_)
      (one (hstack 0 read rfl _ _ _ hfirst)) h
    rw [Nat.add_comm]
    exact hstack (k + 1) read' hk

/-- The readers of signed operands that have `m` levels below them derive signed operands. -/
def SignedSound (stop limit m : Nat) : Prop :=
  ∀ {d ls e rest}, d + (m + 1) = limit → signed stop (levels stop m) ls = .ok (e, rest) →
    Derives.Signed limit d (tokens ls) e (tokens rest)

section Levels

variable {n d : Nat} {ls rest : List Lexeme} {e : Expr}

theorem top_sound (hd : d + n = limit) (hsigned : ∀ m < n, SignedSound stop limit m)
    (h : top stop (levels stop n) ls = .ok (e, rest)) :
    Derives.Signed limit d (tokens ls) e (tokens rest) := by
  cases n with
  | zero => exact absurd h fail_ne_ok
  | succ n => exact hsigned n (Nat.lt_succ_self n) hd h

theorem term_sound (hd : d + n = limit) (hsigned : ∀ m < n, SignedSound stop limit m)
    (h : term stop (levels stop n) ls = .ok (e, rest)) :
    ∃ m, Derives.Term limit d m (tokens ls) e (tokens rest) := by
  refine chain_sound (fun m => Derives.Term limit d m (tokens ls))
    (fun k => Derives.Signed limit (d + k)) .one ?_ ?_ h
  · intro m left us op us' right rest before hop next
    unfold operandOperation? at hop
    split at hop <;> cases hop
    · exact .times before next
    · exact .divide before next
    · exact .juxtaposed before rfl next
    · exact .juxtaposed before rfl next
    · exact .juxtaposed before rfl next
  · intro k read hk ls e rest hread
    obtain ⟨hkn, rfl⟩ := getElem?_levels hk
    exact hsigned _ (by omega) (by omega) hread

theorem expression_sound (hd : d + n = limit) (hsigned : ∀ m < n, SignedSound stop limit m)
    (h : expression stop (levels stop n) ls = .ok (e, rest)) :
    ∃ m, Derives.Expression limit d m (tokens ls) e (tokens rest) := by
  refine chain_sound (fun m => Derives.Expression limit d m (tokens ls))
    (fun k us e rest => ∃ m, Derives.Term limit (d + k) m us e rest)
    (fun ⟨_, first⟩ => .one first) ?_ ?_ h
  · intro m left us op us' right rest before hop ⟨_, next⟩
    unfold termOperation? at hop
    split at hop <;> cases hop
    · exact .plus before next
    · exact .minus before next
  · intro k read hk ls e rest hread
    obtain ⟨hkn, rfl⟩ := getElem?_terms hk
    rw [length_levels] at hkn
    rw [drop_levels] at hread
    exact term_sound (by omega) (fun m hm => hsigned m (by omega)) hread

theorem separated_sound (hd : d + n = limit) (hsigned : ∀ m < n, SignedSound stop limit m)
    (most : Nat) {ls rest : List Lexeme} {es : List Expr}
    (h : operandsFrom stop (expression stop (levels stop n)) most ls = .ok (es, rest)) :
    Derives.Separated limit d (tokens ls) es (tokens rest) := by
  induction most generalizing ls es with
  | zero => exact absurd h fail_ne_ok
  | succ most ih =>
    rw [operandsFrom] at h
    obtain ⟨⟨e, us⟩, hfirst, h⟩ := bind_eq_ok.1 h
    obtain ⟨m, first⟩ := expression_sound hd hsigned hfirst
    dsimp only at h
    split at h
    · obtain ⟨⟨others, us'⟩, hothers, h⟩ := bind_eq_ok.1 h
      cases h
      exact .more first (ih hothers)
    · cases h
      exact .last first
    · exact absurd h fail_ne_ok

theorem operands_sound (hd : d + n = limit) (hsigned : ∀ m < n, SignedSound stop limit m)
    {es : List Expr} (h : operands stop (expression stop (levels stop n)) ls = .ok (es, rest)) :
    Derives.Operands limit d (tokens ls) es (tokens rest) := by
  unfold operands at h
  split at h
  · cases h
    exact .none
  · exact .some (separated_sound hd hsigned _ h)

theorem primary_sound (hd : d + n = limit) (hsigned : ∀ m < n, SignedSound stop limit m)
    (h : primary stop (levels stop n) ls = .ok (e, rest)) :
    Derives.Primary limit d (tokens ls) e (tokens rest) := by
  unfold primary at h
  split at h
  · cases h
    exact .number
  · obtain ⟨⟨es, us⟩, hes, h⟩ := bind_eq_ok.1 h
    cases h
    exact .call (operands_sound hd hsigned hes)
  · next name p ts uncalled =>
    cases h
    refine .name fun hhead => ?_
    cases rest with
    | nil => cases hhead
    | cons t rest =>
      obtain ⟨token, q⟩ := t
      cases hhead
      exact uncalled _ _ rfl
  · obtain ⟨⟨inner, us⟩, hinner, h⟩ := bind_eq_ok.1 h
    obtain ⟨m, inside⟩ := expression_sound hd hsigned hinner
    dsimp only at h
    split at h
    · cases h
      exact .group inside
    · exact absurd h fail_ne_ok
  · exact absurd h fail_ne_ok
  · exact absurd h fail_ne_ok

theorem power_sound (hd : d + n = limit) (hsigned : ∀ m < n, SignedSound stop limit m)
    (h : power stop (levels stop n) ls = .ok (e, rest)) :
    Derives.Power limit d (tokens ls) e (tokens rest) := by
  rw [power] at h
  obtain ⟨⟨base, us⟩, hbase, h⟩ := bind_eq_ok.1 h
  have below := primary_sound hd hsigned hbase
  dsimp only at h
  split at h
  · obtain ⟨⟨exponent, us'⟩, hexponent, h⟩ := bind_eq_ok.1 h
    cases h
    exact .raised below (top_sound hd hsigned hexponent)
  · cases h
    exact .base below

end Levels

/-- The readers of signed operands derive signed operands, by induction on the levels below. -/
theorem signed_sound (m : Nat) : SignedSound stop limit m := by
  induction m using Nat.strongRecOn with
  | _ m ih =>
    intro d ls e rest hd h
    have room : d + 1 ≤ limit := by omega
    have hd' : d + 1 + m = limit := by omega
    unfold signed at h
    split at h
    · obtain ⟨⟨operand, us⟩, hoperand, h⟩ := bind_eq_ok.1 h
      cases h
      exact .minus room (top_sound hd' ih hoperand)
    · exact .plus room (top_sound hd' ih h)
    · exact .power room (power_sound hd' ih h)

end Argand.Grammar
