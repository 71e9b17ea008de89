import Argand.Proofs.Expr.Frame
import Argand.Proofs.Expr.Completeness

/-!
# Reading ahead

The readers look one lexeme past what they take and no further. Where one fails, it blames the next lexeme,
it fails in the same way whatever stands behind that one, and what it has gone along so far could still have
become a phrase (`Stuck`). A reader with more levels does the same, unless the first one failed for want of
levels. `Predictive` says both of a reader and a text.

Readers are put together from others : one takes a sign and becomes another one (`Predictive.skip`), one
follows another (`Predictive.bind`), or a result is put to use (`Predictive.map`). For each reader of the
grammar there is a lemma that puts it together so. What has been read is a phrase by soundness, and stays one
in front of another continuation by `Replaces`, which is why a reader that is stuck behind it can be
completed. Terms and expressions share `Chained.predictive_chain`. The levels are treated by induction, as in
the proof of soundness (`signed_predictive`).
-/

namespace Argand.Grammar

open Derives (Replaces replaces_append)

variable {α β : Type} {stop limit : Nat}

/-! ## Reading with one token of lookahead -/

/-- The place of the next lexeme, or the end of the text if there is none. -/
def place (stop : Nat) (ls : List Lexeme) : Nat :=
  (ls.head?.map Lexeme.position).getD stop

theorem fail_eq {ls : List Lexeme} {cause : SyntaxCause} :
    (fail stop ls cause : Except SyntaxError α) = .error ⟨place stop ls, cause⟩ := by
  cases ls <;> rfl

/-- Some continuation makes the tokens a phrase, whatever follows it. -/
def Promising (Phrase : List Token → α → List Token → Prop) (ts : List Token) : Prop :=
  ∃ more, ∀ after, ∃ a, Phrase (ts ++ (more ++ after)) a after

/-- A phrase that can still be completed can be completed as a part of another one, with `tail` behind it. -/
theorem Promising.within {P : List Token → α → List Token → Prop} {Q : List Token → β → List Token → Prop}
    {ts ts' : List Token} (tail : List Token) (h : Promising P ts)
    (lift : ∀ {more a after}, P (ts ++ more) a (tail ++ after) → ∃ b, Q (ts' ++ more) b after) :
    Promising Q ts' := by
  obtain ⟨more, hmore⟩ := h
  refine ⟨more ++ tail, fun after => ?_⟩
  obtain ⟨a, ha⟩ := hmore (tail ++ after)
  rw [List.append_assoc]
  exact lift ha

/-- A reader that has gone along `us` gives up in front of `rest` : it blames the next lexeme, it would do
so whatever stands behind that one, and `us` could have become a phrase. -/
structure Stuck (stop : Nat) (Phrase : List Token → α → List Token → Prop) (read : Reader α)
    (err : SyntaxError) (us rest : List Lexeme) : Prop where
  blames : err.position = place stop rest
  hopeless : ∀ rest', rest'.head? = rest.head? → read (us ++ rest') = .error err
  promising : Promising Phrase (tokens us)

/-- On a text, a reader looks no further than one lexeme past what it takes. So does `read'`, which has the
same outcome unless `read` lacks the levels. -/
structure Predictive (stop : Nat) (Phrase : List Token → α → List Token → Prop)
    (read read' : Reader α) (ls : List Lexeme) : Prop where
  ok : ∀ {a rest}, read ls = .ok (a, rest) → ∃ us, ls = us ++ rest ∧
    ∀ rest', rest'.head? = rest.head? → read' (us ++ rest') = .ok (a, rest')
  error : ∀ {err}, read ls = .error err → err.cause ≠ .nestedTooDeeply → ∃ us rest, ls = us ++ rest ∧
    Stuck stop Phrase read' err us rest

theorem head?_append_congr {us rest rest' : List Lexeme} (h : rest'.head? = rest.head?) :
    (us ++ rest').head? = (us ++ rest).head? := by
  rw [List.head?_append, List.head?_append, h]

theorem forall_head?_nil {p : List Lexeme → Prop} (h : p []) (ls : List Lexeme)
    (hls : ls.head? = ([] : List Lexeme).head?) : p ls := by
  rwa [List.head?_eq_none_iff.1 hls]

theorem forall_head?_cons {p : List Lexeme → Prop} {t : Lexeme} {us : List Lexeme}
    (h : ∀ us', p (t :: us')) (ls : List Lexeme) (hls : ls.head? = (t :: us).head?) : p ls := by
  obtain ⟨us', rfl⟩ := List.head?_eq_some_iff.1 hls
  exact h us'

theorem place_congr {ls ls' : List Lexeme} (h : ls'.head? = ls.head?) : place stop ls' = place stop ls := by
  rw [place, place, h]

namespace Predictive

variable {P : List Token → α → List Token → Prop} {Q : List Token → β → List Token → Prop}
  {read read' : Reader α} {ls : List Lexeme}

theorem mono {P' : List Token → α → List Token → Prop} (h : Predictive stop P read read' ls)
    (lift : ∀ {ts a rest}, P ts a rest → P' ts a rest) : Predictive stop P' read read' ls where
  ok := h.ok
  error herr hcause := by
    obtain ⟨us, rest, hls, stuck⟩ := h.error herr hcause
    exact ⟨us, rest, hls, stuck.blames, stuck.hopeless, stuck.promising.within [] fun h => ⟨_, lift h⟩⟩

theorem tooDeep (us : List Lexeme) (h : read ls = fail stop us .nestedTooDeeply) :
    Predictive stop P read read' ls where
  ok hok := absurd (h.symm.trans hok) fail_ne_ok
  error herr hcause := by
    rw [h, fail_eq, Except.error.injEq] at herr
    subst herr
    exact absurd rfl hcause

/-- A reader that has all it wants. -/
theorem pure {a : α} (h : read ls = .ok (a, ls))
    (h' : ∀ ls', ls'.head? = ls.head? → read' ls' = .ok (a, ls')) : Predictive stop P read read' ls where
  ok hok := by
    rw [h, Except.ok.injEq, Prod.mk.injEq] at hok
    obtain ⟨rfl, rfl⟩ := hok
    exact ⟨[], rfl, h'⟩
  error herr _ := by
    rw [h] at herr
    cases herr

/-- A reader that cannot go on at the next lexeme. -/
theorem fail {cause : SyntaxCause} (h : read ls = Grammar.fail stop ls cause)
    (h' : ∀ ls', ls'.head? = ls.head? → read' ls' = Grammar.fail stop ls' cause)
    (promising : Promising P []) : Predictive stop P read read' ls where
  ok hok := absurd (h.symm.trans hok) fail_ne_ok
  error herr _ := by
    rw [h, fail_eq, Except.error.injEq] at herr
    subst herr
    refine ⟨[], ls, rfl, rfl, fun rest' hrest' => ?_, promising⟩
    rw [List.nil_append, h' rest' hrest', fail_eq, place_congr hrest']

/-- A reader that goes along `sign` and becomes another one, decided by the next lexeme at most. -/
theorem skip {next next' : Reader α} (sign : List Lexeme) {us : List Lexeme}
    (hnext : Predictive stop (fun ts => P (tokens sign ++ ts)) next next' us)
    (h : ∀ us', (sign ++ us').head? = (sign ++ us).head? →
      read (sign ++ us') = next us' ∧ read' (sign ++ us') = next' us') :
    Predictive stop P read read' (sign ++ us) where
  ok hok := by
    rw [(h us rfl).1] at hok
    obtain ⟨vs, rfl, hvs⟩ := hnext.ok hok
    refine ⟨sign ++ vs, (List.append_assoc sign vs _).symm, fun rest' hrest' => ?_⟩
    rw [List.append_assoc, (h _ (head?_append_congr (head?_append_congr hrest'))).2, hvs rest' hrest']
  error herr hcause := by
    rw [(h us rfl).1] at herr
    obtain ⟨vs, rest, rfl, stuck⟩ := hnext.error herr hcause
    refine ⟨sign ++ vs, rest, (List.append_assoc sign vs _).symm, stuck.blames, fun rest' hrest' => ?_, ?_⟩
    · rw [List.append_assoc, (h _ (head?_append_congr (head?_append_congr hrest'))).2,
        stuck.hopeless rest' hrest']
    · refine stuck.promising.within [] fun {more a after} h => ⟨a, ?_⟩
      rw [tokens, List.map_append, List.append_assoc]
      exact h

/-- A reader that is another one, decided by the next lexeme. -/
theorem choose {next next' : Reader α} (hnext : Predictive stop P next next' ls)
    (h : ∀ ls', ls'.head? = ls.head? → read ls' = next ls' ∧ read' ls' = next' ls') :
    Predictive stop P read read' ls :=
  skip [] hnext h

/-- A reader that goes along `sign` and has all it wants. -/
theorem take {a : α} (sign : List Lexeme) {us : List Lexeme} (h : ∀ us', read (sign ++ us') = .ok (a, us'))
    (h' : ∀ us', read' (sign ++ us') = .ok (a, us')) : Predictive stop P read read' (sign ++ us) := by
  have done : Predictive stop (fun ts => P (tokens sign ++ ts)) (fun us => .ok (a, us))
      (fun us => .ok (a, us)) us := .pure rfl fun _ _ => rfl
  exact skip sign done fun us' _ => ⟨h us', h' us'⟩

/-- One reader behind another. The second one is read with what the first one took in front of it. -/
theorem bind (next next' : α → Reader β) (hread : Predictive stop P read read' ls)
    (hfirst : ∀ {us rest}, ls = us ++ rest → Promising P (tokens us) → Promising Q (tokens us))
    (hnext : ∀ {us a rest}, ls = us ++ rest → read ls = .ok (a, rest) →
      Predictive stop (fun ts => Q (tokens us ++ ts)) (next a) (next' a) rest) :
    Predictive stop Q (fun ls => read ls >>= fun x => next x.1 x.2)
      (fun ls => read' ls >>= fun x => next' x.1 x.2) ls where
  ok {b rest} hok := by
    obtain ⟨⟨a, mid⟩, ha, hb⟩ := bind_eq_ok.1 hok
    obtain ⟨us, rfl, hus⟩ := hread.ok ha
    obtain ⟨vs, rfl, hvs⟩ := (hnext rfl ha).ok hb
    refine ⟨us ++ vs, (List.append_assoc us vs rest).symm, fun rest' hrest' => ?_⟩
    rw [List.append_assoc, hus _ (head?_append_congr hrest'), ok_bind]
    exact hvs rest' hrest'
  error {err} herr hcause := by
    cases hr : read ls with
    | error e =>
      rw [hr] at herr
      cases herr
      obtain ⟨us, rest, hls, stuck⟩ := hread.error hr hcause
      refine ⟨us, rest, hls, stuck.blames, fun rest' hrest' => ?_, hfirst hls stuck.promising⟩
      rw [stuck.hopeless rest' hrest']
      rfl
    | ok x =>
      obtain ⟨a, mid⟩ := x
      rw [hr, ok_bind] at herr
      obtain ⟨us, rfl, hus⟩ := hread.ok hr
      obtain ⟨vs, rest, rfl, stuck⟩ := (hnext rfl hr).error herr hcause
      refine ⟨us ++ vs, rest, (List.append_assoc us vs rest).symm, stuck.blames, fun rest' hrest' => ?_, ?_⟩
      · rw [List.append_assoc, hus _ (head?_append_congr hrest'), ok_bind]
        exact stuck.hopeless rest' hrest'
      · refine stuck.promising.within [] fun {more b after} h => ⟨b, ?_⟩
        rw [tokens, List.map_append, List.append_assoc]
        exact h

/-- A reader whose result is put to use. -/
theorem map {f : α → β} (h : Predictive stop P read read' ls)
    (lift : ∀ {ts a rest}, P ts a rest → Q ts (f a) rest) :
    Predictive stop Q (fun ls => read ls >>= fun x => .ok (f x.1, x.2))
      (fun ls => read' ls >>= fun x => .ok (f x.1, x.2)) ls := by
  exact bind (fun a rest => .ok (f a, rest)) (fun a rest => .ok (f a, rest)) h
    (fun _ promising => promising.within [] fun h => ⟨_, lift h⟩) fun _ _ => .pure rfl fun _ _ => rfl

end Predictive

/-! ## Chains -/

/-- What makes a chain of operands predictive, beside its operands : they are read by the readers of a stack
from the top, the one with `m` below it being `read m`, and the next lexeme decides whether a sign follows. -/
structure Chained (stop limit d : Nat) (operation? : List Lexeme → Option (String × List Lexeme))
    (stack : Nat → List (Reader Expr)) (read : Nat → Reader Expr)
    (Chain Operand : Nat → List Token → Expr → List Token → Prop) : Prop where
  stack_zero : stack 0 = []
  stack_succ : ∀ m, stack (m + 1) = read m :: stack m
  sign : ∀ {ls op us}, operation? ls = some (op, us) → ∃ sign, ls = sign ++ us ∧
    ∀ us', (sign ++ us').head? = ls.head? → operation? (sign ++ us') = some (op, us')
  done : ∀ {ls ls'}, operation? ls = none → ls'.head? = ls.head? → operation? ls' = none
  sound : ∀ {j m ls e rest}, d + j + (m + 1) = limit → read m ls = .ok (e, rest) →
    Operand j (tokens ls) e (tokens rest)
  one : ∀ {ts e rest}, Operand 0 ts e rest → Chain 0 ts e rest
  join : ∀ {k ts left ls op us right rest}, Chain k ts left (tokens ls) → operation? ls = some (op, us) →
    Operand (k + 1) (tokens us) right rest → Chain (k + 1) ts (.call op [left, right]) rest
  promising : ∀ {k ts left sign op us rest}, Chain k (ts ++ tokens (sign ++ (us ++ rest))) left
      (tokens (sign ++ (us ++ rest))) → operation? (sign ++ (us ++ rest)) = some (op, us ++ rest) →
    Promising (Operand (k + 1)) (tokens us) →
    Promising (fun vs e after => ∃ m, Chain m (ts ++ (tokens sign ++ vs)) e after) (tokens us)

namespace Chained

variable {d : Nat} {operation? : List Lexeme → Option (String × List Lexeme)}
  {stack : Nat → List (Reader Expr)} {read : Nat → Reader Expr}
  {Chain Operand : Nat → List Token → Expr → List Token → Prop}

/-- Going on with a chain is predictive, behind the tokens `ts` of its part so far. -/
theorem predictive_chainFrom (h : Chained stop limit d operation? stack read Chain Operand) :
    ∀ {n n' k : Nat} {left : Expr} {ts : List Token} {ls : List Lexeme}, d + (k + 1) + n = limit → n ≤ n' →
      (∀ {j m m'}, d + j + (m + 1) = limit → m < n → m ≤ m' → ∀ ls,
        Predictive stop (Operand j) (read m) (read m') ls) →
      Chain k (ts ++ tokens ls) left (tokens ls) →
      Predictive stop (fun us e after => ∃ m, Chain m (ts ++ us) e after)
        (chainFrom stop operation? (stack n) left) (chainFrom stop operation? (stack n') left) ls := by
  intro n
  induction n with
  | zero =>
    intro n' k left ts ls hd hn hoperand hleft
    cases hop : operation? ls with
    | none => exact .pure (chainFrom_end hop) fun ls' hls' => chainFrom_end (h.done hop hls')
    | some x =>
      obtain ⟨op, us⟩ := x
      refine .tooDeep us ?_
      rw [h.stack_zero, chainFrom, hop]
  | succ n ih =>
    intro n' k left ts ls hd hn hoperand hleft
    cases hop : operation? ls with
    | none => exact .pure (chainFrom_end hop) fun ls' hls' => chainFrom_end (h.done hop hls')
    | some x =>
      obtain ⟨op, us⟩ := x
      obtain ⟨n', rfl⟩ := Nat.exists_eq_add_one_of_ne_zero (Nat.ne_zero_of_lt hn)
      obtain ⟨sign, rfl, hsign⟩ := h.sign hop
      have step : ∀ m us', (sign ++ us').head? = (sign ++ us).head? →
          chainFrom stop operation? (stack (m + 1)) left (sign ++ us') =
            read m us' >>= fun x => chainFrom stop operation? (stack m) (.call op [left, x.1]) x.2 := by
        intro m us' hus'
        rw [h.stack_succ, chainFrom, hsign us' hus']
      refine .skip sign ?_ fun us' hus' => ⟨step n us' hus', step n' us' hus'⟩
      refine .bind (fun right => chainFrom stop operation? (stack n) (.call op [left, right]))
        (fun right => chainFrom stop operation? (stack n') (.call op [left, right]))
        (hoperand (by omega) (Nat.lt_succ_self n) (Nat.le_of_succ_le_succ hn) us) ?_ ?_
      · rintro vs rest rfl promising
        exact h.promising hleft hop promising
      · rintro vs right rest rfl hright
        have longer := h.join hleft hop (h.sound (by omega) hright)
        have split : ∀ us, ts ++ (tokens sign ++ (tokens vs ++ us)) = ts ++ tokens sign ++ tokens vs ++ us := by
          simp only [List.append_assoc, forall_const]
        rw [tokens, List.map_append, List.map_append, split] at longer
        simp only [split]
        exact ih (by omega) (Nat.le_of_succ_le_succ hn)
          (fun hd hm hm' => hoperand hd (Nat.lt_succ_of_lt hm) hm') longer

theorem predictive_chain (h : Chained stop limit d operation? stack read Chain Operand) {n n' : Nat}
    (hd : d + n = limit) (hn : n ≤ n')
    (hoperand : ∀ {j m m'}, d + j + (m + 1) = limit → m < n → m ≤ m' → ∀ ls,
      Predictive stop (Operand j) (read m) (read m') ls) (ls : List Lexeme) :
    Predictive stop (fun ts e rest => ∃ m, Chain m ts e rest) (chain stop operation? (stack n))
      (chain stop operation? (stack n')) ls := by
  cases n with
  | zero =>
    refine .tooDeep ls ?_
    rw [h.stack_zero]
    show (Grammar.fail stop ls .nestedTooDeeply >>= _) = _
    simp only [fail_eq]
    rfl
  | succ n =>
    obtain ⟨n', rfl⟩ := Nat.exists_eq_add_one_of_ne_zero (Nat.ne_zero_of_lt hn)
    rw [h.stack_succ, h.stack_succ]
    refine .bind (chainFrom stop operation? (stack n)) (chainFrom stop operation? (stack n'))
      (hoperand (j := 0) (by omega) (Nat.lt_succ_self n) (Nat.le_of_succ_le_succ hn) ls) ?_ ?_
    · exact fun _ promising => promising.within [] fun first => ⟨_, 0, h.one first⟩
    · rintro us first rest rfl hfirst
      have left := h.one (h.sound (by omega) hfirst)
      rw [tokens, List.map_append] at left
      exact h.predictive_chainFrom (by omega) (Nat.le_of_succ_le_succ hn)
        (fun hd hm hm' => hoperand hd (Nat.lt_succ_of_lt hm) hm') left

end Chained

theorem operandOperation?_eq_some {ls us : List Lexeme} {op : String}
    (h : operandOperation? ls = some (op, us)) :
    (∃ p, ls = ⟨.times, p⟩ :: us ∧ op = "multiply") ∨ (∃ p, ls = ⟨.divide, p⟩ :: us ∧ op = "divide") ∨
      ls = us ∧ op = "multiply" ∧ Derives.opensOperand (tokens us) = true := by
  unfold operandOperation? at h
  split at h <;> cases h
  · exact .inl ⟨_, rfl, rfl⟩
  · exact .inr (.inl ⟨_, rfl, rfl⟩)
  all_goals exact .inr (.inr ⟨rfl, rfl, rfl⟩)

theorem termOperation?_eq_some {ls us : List Lexeme} {op : String}
    (h : termOperation? ls = some (op, us)) :
    (∃ p, ls = ⟨.plus, p⟩ :: us ∧ op = "add") ∨ ∃ p, ls = ⟨.minus, p⟩ :: us ∧ op = "subtract" := by
  unfold termOperation? at h
  split at h <;> cases h
  · exact .inl ⟨_, rfl, rfl⟩
  · exact .inr ⟨_, rfl, rfl⟩

theorem opensOperand_congr {ls ls' : List Lexeme} (h : Derives.opensOperand (tokens ls) = true)
    (hls' : ls'.head? = ls.head?) : Derives.opensOperand (tokens ls') = true := by
  cases ls with
  | nil => cases h
  | cons t ls =>
    obtain ⟨ls', rfl⟩ := List.head?_eq_some_iff.1 hls'
    rw [← h]
    exact @Derives.opensOperand_append [t.token] _ _ (List.cons_ne_nil _ _)

theorem operandOperation?_sign {ls us : List Lexeme} {op : String}
    (h : operandOperation? ls = some (op, us)) : ∃ sign, ls = sign ++ us ∧
      ∀ us', (sign ++ us').head? = ls.head? → operandOperation? (sign ++ us') = some (op, us') := by
  rcases operandOperation?_eq_some h with ⟨p, rfl, rfl⟩ | ⟨p, rfl, rfl⟩ | ⟨rfl, rfl, opens⟩
  · exact ⟨[_], rfl, fun _ _ => rfl⟩
  · exact ⟨[_], rfl, fun _ _ => rfl⟩
  · exact ⟨[], rfl, fun _ hus' => operandOperation?_of_opens (opensOperand_congr opens hus')⟩

theorem operandOperation?_done {ls ls' : List Lexeme} (h : operandOperation? ls = none)
    (hls' : ls'.head? = ls.head?) : operandOperation? ls' = none := by
  cases ls with
  | nil => rw [List.head?_eq_none_iff.1 hls']; rfl
  | cons t ls =>
    obtain ⟨ls', rfl⟩ := List.head?_eq_some_iff.1 hls'
    obtain ⟨token, p⟩ := t
    cases token <;> first | rfl | cases h

theorem termOperation?_sign {ls us : List Lexeme} {op : String}
    (h : termOperation? ls = some (op, us)) : ∃ sign, ls = sign ++ us ∧
      ∀ us', (sign ++ us').head? = ls.head? → termOperation? (sign ++ us') = some (op, us') := by
  rcases termOperation?_eq_some h with ⟨p, rfl, rfl⟩ | ⟨p, rfl, rfl⟩
  · exact ⟨[_], rfl, fun _ _ => rfl⟩
  · exact ⟨[_], rfl, fun _ _ => rfl⟩

theorem termOperation?_done {ls ls' : List Lexeme} (h : termOperation? ls = none)
    (hls' : ls'.head? = ls.head?) : termOperation? ls' = none := by
  cases ls with
  | nil => rw [List.head?_eq_none_iff.1 hls']; rfl
  | cons t ls =>
    obtain ⟨ls', rfl⟩ := List.head?_eq_some_iff.1 hls'
    obtain ⟨token, p⟩ := t
    cases token <;> first | rfl | cases h

/-- Readers of signed operands with `m` levels below them are predictive, and go along with those that have
more. -/
def SignedPredictive (stop limit m : Nat) : Prop :=
  ∀ {d m'}, d + (m + 1) = limit → m ≤ m' → ∀ ls, Predictive stop (Derives.Signed limit d)
    (signed stop (levels stop m)) (signed stop (levels stop m')) ls

section Levels

variable {n n' d k : Nat} {ts : List Token} {us rest : List Lexeme} {left : Expr}

/-- A term goes on with an operand without a sign, though perhaps with another one. -/
theorem promising_juxtaposed
    (before : Derives.Term limit d k (ts ++ tokens (us ++ rest)) left (tokens (us ++ rest)))
    (opens : Derives.opensOperand (tokens (us ++ rest)) = true)
    (promising : Promising (Derives.Signed limit (d + (k + 1))) (tokens us)) :
    Promising (fun vs e after => ∃ m, Derives.Term limit d m (ts ++ vs) e after) (tokens us) := by
  obtain ⟨more, hmore⟩ := promising
  by_cases nonempty : tokens us = []
  · obtain ⟨_, next⟩ := hmore []
    rw [nonempty]
    exact ⟨[.number 0], fun after =>
      ⟨_, k + 1, .juxtaposed (before.replace (.cons rfl)) rfl (.power next.room (.base .number))⟩⟩
  · refine ⟨more, fun after => ?_⟩
    obtain ⟨right, next⟩ := hmore after
    rw [tokens, List.map_append] at before opens
    refine ⟨_, k + 1, .juxtaposed (before.replace (Derives.replaces_append nonempty)) ?_ next⟩
    rw [Derives.opensOperand_append nonempty, opens]

theorem chained_term : Chained stop limit d operandOperation? (levels stop)
    (fun m => signed stop (levels stop m)) (Derives.Term limit d) (fun j => Derives.Signed limit (d + j)) where
  stack_zero := rfl
  stack_succ _ := rfl
  sign := operandOperation?_sign
  done := operandOperation?_done
  sound hd hread := signed_sound _ hd hread
  one := .one
  join before hop next := by
    rcases operandOperation?_eq_some hop with ⟨p, rfl, rfl⟩ | ⟨p, rfl, rfl⟩ | ⟨rfl, rfl, opens⟩
    · exact .times before next
    · exact .divide before next
    · exact .juxtaposed before opens next
  promising {k ts left sign op us rest} before hop promising := by
    rcases operandOperation?_eq_some hop with ⟨p, hls, rfl⟩ | ⟨p, hls, rfl⟩ | ⟨hls, rfl, opens⟩
    · obtain rfl := @List.append_cancel_right _ sign _ [_] hls
      exact promising.within [] fun next => ⟨_, _, .times (before.replace (.cons rfl)) next⟩
    · obtain rfl := @List.append_cancel_right _ sign _ [_] hls
      exact promising.within [] fun next => ⟨_, _, .divide (before.replace (.cons rfl)) next⟩
    · obtain rfl := List.append_left_eq_self.1 hls
      exact promising_juxtaposed before opens promising

theorem term_predictive (hd : d + n = limit) (hn : n ≤ n') (hsigned : ∀ m < n, SignedPredictive stop limit m)
    (ls : List Lexeme) : Predictive stop (fun ts e rest => ∃ m, Derives.Term limit d m ts e rest)
      (term stop (levels stop n)) (term stop (levels stop n')) ls :=
  chained_term.predictive_chain hd hn (fun hd hm hm' => hsigned _ hm hd hm') ls

theorem chained_expression : Chained stop limit d termOperation? (fun m => terms stop (levels stop m))
    (fun m => term stop (levels stop (m + 1))) (Derives.Expression limit d)
    (fun j ts e rest => ∃ m, Derives.Term limit (d + j) m ts e rest) where
  stack_zero := rfl
  stack_succ _ := rfl
  sign := termOperation?_sign
  done := termOperation?_done
  sound hd hread := term_sound hd (fun m _ => signed_sound m) hread
  one := fun ⟨_, first⟩ => .one first
  join before hop next := by
    obtain ⟨_, next⟩ := next
    rcases termOperation?_eq_some hop with ⟨p, rfl, rfl⟩ | ⟨p, rfl, rfl⟩
    · exact .plus before next
    · exact .minus before next
  promising {k ts left sign op us rest} before hop promising := by
    rcases termOperation?_eq_some hop with ⟨p, hls, rfl⟩ | ⟨p, hls, rfl⟩
    · obtain rfl := @List.append_cancel_right _ sign _ [_] hls
      exact promising.within [] fun ⟨_, next⟩ => ⟨_, _, .plus (before.replace (.cons rfl)) next⟩
    · obtain rfl := @List.append_cancel_right _ sign _ [_] hls
      exact promising.within [] fun ⟨_, next⟩ => ⟨_, _, .minus (before.replace (.cons rfl)) next⟩

theorem expression_predictive (hd : d + n = limit) (hn : n ≤ n')
    (hsigned : ∀ m < n, SignedPredictive stop limit m) (ls : List Lexeme) :
    Predictive stop (fun ts e rest => ∃ m, Derives.Expression limit d m ts e rest)
      (expression stop (levels stop n)) (expression stop (levels stop n')) ls :=
  chained_expression.predictive_chain hd hn
    (fun hd hm hm' => term_predictive hd (Nat.succ_le_succ hm') fun m h => hsigned m (by omega)) ls

/-! ## Operands -/

/-- What is behind an operand of a call, whose others `separated` reads. -/
def operandsAfter (stop : Nat) (separated : Reader (List Expr)) (first : Expr) : Reader (List Expr)
  | ⟨.comma, _⟩ :: ts => separated ts >>= fun x => .ok (first :: x.1, x.2)
  | ⟨.closing, _⟩ :: ts => .ok ([first], ts)
  | ts => fail stop ts .expectedCommaOrClosing

/-- The operands of a call that has some, with room for as many of them as there are lexemes. -/
def separated (stop : Nat) (read : Reader Expr) : Reader (List Expr) := fun ls =>
  operandsFrom stop read (ls.length + 1) ls

/-- A reader takes a lexeme at least. -/
def Progresses (read : Reader Expr) : Prop :=
  ∀ {ls e rest}, read ls = .ok (e, rest) → rest.length < ls.length

/-- There is always room for all operands, if each of them takes a lexeme. -/
theorem operandsFrom_congr {read : Reader Expr} (progresses : Progresses read) :
    ∀ {most most' : Nat} {ls : List Lexeme}, ls.length < most → ls.length < most' →
      operandsFrom stop read most ls = operandsFrom stop read most' ls := by
  intro most
  induction most with
  | zero => exact fun h => absurd h (Nat.not_lt_zero _)
  | succ most ih =>
    intro most' ls hmost hmost'
    obtain ⟨most', rfl⟩ := Nat.exists_eq_add_one_of_ne_zero (Nat.ne_zero_of_lt hmost')
    rw [operandsFrom, operandsFrom]
    cases hread : read ls with
    | error err => rfl
    | ok x =>
      obtain ⟨first, rest⟩ := x
      have shorter := progresses hread
      rw [ok_bind, ok_bind]
      dsimp only
      split
      · next us =>
        rw [List.length_cons] at shorter
        rw [@ih most' us (by omega) (by omega)]
      · rfl
      · rfl

theorem separated_eq {read : Reader Expr} (progresses : Progresses read) (ls : List Lexeme) :
    separated stop read ls =
      read ls >>= fun x => operandsAfter stop (separated stop read) x.1 x.2 := by
  rw [separated, operandsFrom]
  cases hread : read ls with
  | error err => rfl
  | ok x =>
    obtain ⟨first, rest⟩ := x
    have shorter := progresses hread
    rw [ok_bind, ok_bind]
    rcases rest with _ | ⟨⟨token, p⟩, us⟩
    · rfl
    · cases token <;> try rfl
      rw [List.length_cons] at shorter
      show operandsFrom stop read ls.length us >>= _ = separated stop read us >>= _
      rw [separated, operandsFrom_congr progresses (by omega) (Nat.lt_succ_self _)]

theorem progresses_expression (n : Nat) : Progresses (expression stop (levels stop n)) := by
  intro ls e rest h
  obtain ⟨m, derived⟩ := expression_sound (Nat.zero_add n) (fun m _ => signed_sound m) h
  have := derived.length_lt
  rwa [tokens, tokens, List.length_map, List.length_map] at this

theorem separated_predictive (hd : d + n = limit) (hn : n ≤ n')
    (hsigned : ∀ m < n, SignedPredictive stop limit m) (ls : List Lexeme) :
    Predictive stop (Derives.Separated limit d) (separated stop (expression stop (levels stop n)))
      (separated stop (expression stop (levels stop n'))) ls := by
  induction h : ls.length using Nat.strongRecOn generalizing ls with
  | _ length ih =>
    refine .choose ?_ fun us' _ =>
      ⟨separated_eq (progresses_expression n) us', separated_eq (progresses_expression n') us'⟩
    refine .bind (operandsAfter stop _) (operandsAfter stop _) (expression_predictive hd hn hsigned ls) ?_ ?_
    · exact fun _ promising => promising.within [.closing] fun ⟨_, first⟩ => ⟨_, .last first⟩
    · rintro us first rest rfl hfirst
      have shorter := progresses_expression n hfirst
      obtain ⟨m, first⟩ := expression_sound hd (fun m _ => signed_sound m) hfirst
      rw [tokens, List.map_append] at first
      have promising : Promising (fun ts => Derives.Separated limit d (tokens us ++ ts)) [] :=
        ⟨[.closing], fun _ => ⟨_, .last (first.replace (.cons rfl))⟩⟩
      rcases rest with _ | ⟨⟨token, p⟩, rest⟩
      · exact .fail rfl (forall_head?_nil rfl) promising
      · cases token
        case comma =>
          rw [List.length_cons] at shorter
          have others := ih rest.length (by omega) rest rfl
          refine .skip [⟨.comma, p⟩] (others.map fun others => ?_) fun _ _ => ⟨rfl, rfl⟩
          exact .more (first.replace (.cons rfl)) others
        case closing =>
          exact .take [⟨.closing, p⟩] (fun _ => rfl) fun _ => rfl
        all_goals exact .fail rfl (forall_head?_cons fun _ => rfl) promising

theorem operands_predictive (hd : d + n = limit) (hn : n ≤ n')
    (hsigned : ∀ m < n, SignedPredictive stop limit m) (ls : List Lexeme) :
    Predictive stop (Derives.Operands limit d) (operands stop (expression stop (levels stop n)))
      (operands stop (expression stop (levels stop n'))) ls := by
  have some : Predictive stop (Derives.Operands limit d) (separated stop (expression stop (levels stop n)))
      (separated stop (expression stop (levels stop n'))) ls :=
    (separated_predictive hd hn hsigned ls).mono .some
  rcases ls with _ | ⟨⟨token, p⟩, ls⟩
  · exact some.choose (forall_head?_nil ⟨rfl, rfl⟩)
  · cases token
    case closing =>
      exact .take [⟨.closing, p⟩] (fun _ => rfl) fun _ => rfl
    all_goals exact some.choose (forall_head?_cons fun _ => ⟨rfl, rfl⟩)

/-! ## Powers -/

/-- What is behind the expression of a group. -/
def groupAfter (stop : Nat) (inner : Expr) : Reader Expr
  | ⟨.closing, _⟩ :: ts => .ok (.group inner, ts)
  | ts => fail stop ts .expectedClosing

theorem group_predictive (hd : d + n = limit) (hn : n ≤ n')
    (hsigned : ∀ m < n, SignedPredictive stop limit m) (ls : List Lexeme) :
    Predictive stop (fun ts => Derives.Primary limit d (.opening :: ts))
      (fun ls => expression stop (levels stop n) ls >>= fun x => groupAfter stop x.1 x.2)
      (fun ls => expression stop (levels stop n') ls >>= fun x => groupAfter stop x.1 x.2) ls := by
  refine .bind (groupAfter stop) (groupAfter stop) (expression_predictive hd hn hsigned ls) ?_ ?_
  · exact fun _ promising => promising.within [.closing] fun ⟨_, inner⟩ => ⟨_, .group inner⟩
  · rintro us inner rest rfl hinner
    obtain ⟨m, inner⟩ := expression_sound hd (fun m _ => signed_sound m) hinner
    rw [tokens, List.map_append] at inner
    have promising : Promising (fun ts => Derives.Primary limit d (.opening :: (tokens us ++ ts))) [] :=
      ⟨[.closing], fun _ => ⟨_, .group (inner.replace (.cons rfl))⟩⟩
    rcases rest with _ | ⟨⟨token, p⟩, rest⟩
    · exact .fail rfl (forall_head?_nil rfl) promising
    · cases token
      case closing => exact .take [⟨.closing, p⟩] (fun _ => rfl) fun _ => rfl
      all_goals exact .fail rfl (forall_head?_cons fun _ => rfl) promising

theorem primary_predictive (hd : d + n = limit) (hn : n ≤ n')
    (hsigned : ∀ m < n, SignedPredictive stop limit m) (ls : List Lexeme) :
    Predictive stop (Derives.Primary limit d) (primary stop (levels stop n)) (primary stop (levels stop n'))
      ls := by
  have promising : Promising (Derives.Primary limit d) [] := ⟨[.number 0], fun _ => ⟨_, .number⟩⟩
  rcases ls with _ | ⟨⟨token, p⟩, ls⟩
  · exact .fail rfl (forall_head?_nil rfl) promising
  · cases token
    case number value =>
      exact .take [⟨.number value, p⟩] (fun _ => rfl) fun _ => rfl
    case name text =>
      by_cases called : (tokens ls).head? = some .opening
      · obtain ⟨ts, hls⟩ := List.head?_eq_some_iff.1 called
        obtain ⟨q, ls, rfl, rfl⟩ := eq_cons_of_tokens hls
        exact .skip [⟨.name text, p⟩, ⟨.opening, q⟩] ((operands_predictive hd hn hsigned ls).map .call)
          fun _ _ => ⟨rfl, rfl⟩
      · have uncalled : ∀ ls' : List Lexeme, ls'.head? = ls.head? → (tokens ls').head? ≠ some .opening := by
          intro ls' hls'
          rwa [tokens, List.head?_map, hls', ← List.head?_map]
        have alone : Predictive stop (fun ts => Derives.Primary limit d (.name text :: ts))
            (fun ls => primary stop (levels stop n) (⟨.name text, p⟩ :: ls))
            (fun ls => primary stop (levels stop n') (⟨.name text, p⟩ :: ls)) ls :=
          .pure (primary_name called) fun ls' hls' => primary_name (uncalled ls' hls')
        exact .skip [⟨.name text, p⟩] alone fun _ _ => ⟨rfl, rfl⟩
    case opening =>
      exact .skip [⟨.opening, p⟩] (group_predictive hd hn hsigned ls) fun _ _ => ⟨rfl, rfl⟩
    all_goals exact .fail rfl (forall_head?_cons fun _ => rfl) promising

theorem top_predictive (hd : d + n = limit) (hn : n ≤ n')
    (hsigned : ∀ m < n, SignedPredictive stop limit m) (ls : List Lexeme) :
    Predictive stop (Derives.Signed limit d) (top stop (levels stop n)) (top stop (levels stop n')) ls := by
  cases n with
  | zero => exact .tooDeep ls rfl
  | succ n =>
    obtain ⟨n', rfl⟩ := Nat.exists_eq_add_one_of_ne_zero (Nat.ne_zero_of_lt hn)
    exact hsigned n (Nat.lt_succ_self n) hd (Nat.le_of_succ_le_succ hn) ls

/-- What is behind the base of a power. -/
def powerAfter (exponent : Reader Expr) (base : Expr) : Reader Expr
  | ⟨.power, _⟩ :: ts => exponent ts >>= fun x => .ok (.call "pow" [base, x.1], x.2)
  | ts => .ok (base, ts)

theorem power_predictive (hd : d + n = limit) (hn : n ≤ n')
    (hsigned : ∀ m < n, SignedPredictive stop limit m) (ls : List Lexeme) :
    Predictive stop (Derives.Power limit d) (power stop (levels stop n)) (power stop (levels stop n')) ls := by
  refine .bind (powerAfter (top stop (levels stop n))) (powerAfter (top stop (levels stop n')))
    (primary_predictive hd hn hsigned ls) ?_ ?_
  · exact fun _ promising => promising.within [] fun base => ⟨_, .base base⟩
  · rintro us base rest rfl hbase
    have below := primary_sound hd (fun m _ => signed_sound m) hbase
    rw [tokens, List.map_append] at below
    rcases rest with _ | ⟨⟨token, p⟩, rest⟩
    · exact .pure rfl (forall_head?_nil rfl)
    · cases token
      case power =>
        have exponent := (top_predictive hd hn hsigned rest).map
          fun above => Derives.Power.raised (below.replace (.cons rfl)) above
        exact .skip [⟨.power, p⟩] exponent fun _ _ => ⟨rfl, rfl⟩
      all_goals exact .pure rfl (forall_head?_cons fun _ => rfl)

theorem signed_predictive (m : Nat) : SignedPredictive stop limit m := by
  induction m using Nat.strongRecOn with
  | _ m ih =>
    intro d m' hd hm ls
    have room : d + 1 ≤ limit := by omega
    have hd' : d + 1 + m = limit := by omega
    have power : Predictive stop (Derives.Signed limit d) (power stop (levels stop m))
        (power stop (levels stop m')) ls := (power_predictive hd' hm ih ls).mono (.power room)
    rcases ls with _ | ⟨⟨token, p⟩, ls⟩
    · exact power.choose (forall_head?_nil ⟨rfl, rfl⟩)
    · have operand := top_predictive hd' hm ih ls
      cases token
      case minus => exact .skip [⟨.minus, p⟩] (operand.map (.minus room)) fun _ _ => ⟨rfl, rfl⟩
      case plus => exact .skip [⟨.plus, p⟩] (operand.mono (.plus room)) fun _ _ => ⟨rfl, rfl⟩
      all_goals exact power.choose (forall_head?_cons fun _ => ⟨rfl, rfl⟩)

end Levels

end Argand.Grammar
