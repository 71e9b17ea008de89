import Argand.Expr.Lexeme
import Argand.Proofs.Outcome
import Argand.Proofs.Span

/-!
# Texts of tokens

`Scans cs ts` : wherever the text `cs` begins, it is cut into the tokens `ts`. The lemmas put a token in
front of a text. A sign can stand in front of anything (`Scans.sign`), a name only in front of what does
not go on with it (`Scans.name`), and a number in front of a comma or a closing parenthesis, or at the end
of the text (`Scans.number`).

A character begins no more than one kind of token, and blanks begin none (`startsName_apart`,
`inNumber_visible`).
-/

namespace Argand

/-! ## First characters -/

/-- A character is in no more than one of two tables whose ranges are apart. -/
theorem RangeTable.contains_eq_false {s t : RangeTable} {c : Char}
    (apart : s.toList.all (fun r => t.toList.all fun q => r.2 < q.1 || q.2 < r.1) = true)
    (h : s.contains c = true) : t.contains c = false := by
  rw [contains, ← Array.any_toList, List.any_eq_true] at h
  obtain ⟨r, hr, here⟩ := h
  rw [contains, ← Array.any_toList, List.any_eq_false]
  intro q hq there
  have := List.all_eq_true.mp (List.all_eq_true.mp apart r hr) q hq
  simp only [Bool.and_eq_true, Bool.or_eq_true, decide_eq_true_eq] at *
  omega

theorem isBlank_of_lt {c : Char} (small : c.toNat < 128) (large : 32 < c.toNat) : isBlank c = false := by
  simp [isBlank, RangeTable.contains, blankRanges]
  omega

theorem inNumber_iff {c : Char} : inNumber c = true ↔ 48 ≤ c.toNat ∧ c.toNat ≤ 57 ∨ c = '.' := by
  simp [inNumber, isDigit, Char.le_def, UInt32.le_iff_toNat_le]

theorem inNumber_visible {c : Char} (h : inNumber c = true) : isBlank c = false := by
  rcases inNumber_iff.mp h with digit | rfl
  · exact isBlank_of_lt (by omega) (by omega)
  · decide +kernel

theorem le_of_isAlphabetic {c : Char} (h : isAlphabetic c = true) : 65 ≤ c.toNat := by
  rw [isAlphabetic] at h
  split at h
  · rcases Bool.or_eq_true_iff.mp h with upper | lower
    · exact (of_decide_eq_true upper).1
    · have small := of_decide_eq_true (Bool.and_eq_true_iff.mp lower).1
      exact Nat.le_trans (by decide) small
  · omega

theorem isBlank_of_isAlphabetic {c : Char} (h : isAlphabetic c = true) : isBlank c = false := by
  have := le_of_isAlphabetic h
  rw [isAlphabetic] at h
  split at h
  · rename_i small
    exact isBlank_of_lt small (by omega)
  · exact RangeTable.contains_eq_false (by decide +kernel) h

/-- A character that begins a name is not a blank and begins no number. -/
theorem startsName_apart {c : Char} (h : startsName c = true) : isBlank c = false ∧ inNumber c = false := by
  rw [startsName, Bool.or_eq_true, decide_eq_true_eq] at h
  rcases h with h | rfl
  · refine ⟨isBlank_of_isAlphabetic h, Bool.eq_false_iff.mpr fun number => ?_⟩
    have := le_of_isAlphabetic h
    rcases inNumber_iff.mp number with digit | rfl
    · omega
    · exact absurd this (by decide)
  · decide +kernel

/-! ## Tokens and what follows them -/

/-- The character of a token that is always the same one. -/
def Token.sign? : Token → Option Char
  | number _ => none
  | name _ => none
  | plus => some '+'
  | minus => some '-'
  | times => some '*'
  | divide => some '/'
  | power => some '^'
  | opening => some '('
  | closing => some ')'
  | comma => some ','

/-- A text that is a name. -/
def IsIdentifier (cs : List Char) : Prop :=
  ∃ c more, cs = c :: more ∧ startsName c = true ∧ ∀ d ∈ more, continuesName d = true

instance : DecidablePred IsIdentifier
  | [] => .isFalse nofun
  | c :: more =>
    decidable_of_iff (startsName c = true ∧ more.all continuesName = true) <| by
      rw [List.all_eq_true]
      constructor
      · rintro ⟨starts, continues⟩
        exact ⟨c, more, rfl, starts, continues⟩
      · rintro ⟨_, _, ⟨⟩, starts, continues⟩
        exact ⟨starts, continues⟩

theorem IsIdentifier.continues {cs : List Char} (h : IsIdentifier cs) :
    ∀ c ∈ cs, continuesName c = true := by
  obtain ⟨c, more, rfl, starts, continues⟩ := h
  refine List.forall_mem_cons.mpr ⟨?_, continues⟩
  rw [startsName] at starts
  rw [continuesName, Bool.or_right_comm, starts, Bool.true_or]

/-- What can follow an operand of a call : nothing, a comma or a closing parenthesis. -/
def Stops : List Char → Prop
  | [] => True
  | c :: _ => c = ',' ∨ c = ')'

theorem Stops.ends {kind : Char → Bool} {cs : List Char} (h : Stops cs) (comma : kind ',' = false)
    (closing : kind ')' = false) : Ends kind cs := by
  cases cs with
  | nil => trivial
  | cons c cs =>
    rcases h with rfl | rfl
    · exact comma
    · exact closing

theorem Stops.nil : Stops [] :=
  True.intro

theorem Stops.comma {cs : List Char} : Stops (',' :: cs) :=
  .inl rfl

theorem Stops.closing {cs : List Char} : Stops (')' :: cs) :=
  .inr rfl

theorem Stops.ends_name {cs : List Char} (h : Stops cs) : Ends continuesName cs :=
  h.ends (by decide +kernel) (by decide +kernel)

/-- No power of ten begins at a comma or a closing parenthesis. -/
theorem Stops.powerLength_eq {cs : List Char} (h : Stops cs) : powerLength cs = 0 := by
  cases cs with
  | nil => rfl
  | cons c cs => rcases h with rfl | rfl <;> rfl

theorem Token.read_name {c : Char} {more rest : List Char} (apart : inNumber c = false)
    (starts : startsName c = true) (continues : ∀ d ∈ more, continuesName d = true)
    (ends : Ends continuesName rest) :
    Token.read c (more ++ rest) = .ok (.name (String.ofList (c :: more)), more.length) := by
  unfold Token.read
  rw [if_neg (by rw [apart]; decide), if_pos starts, takeWhile_of_ends continues ends]

/-- A text is cut into tokens, at any position. -/
def Scans (cs : List Char) (ts : List Token) : Prop :=
  ∀ position, ∃ ls, scan position cs = .ok ls ∧ ls.map Lexeme.token = ts

namespace Scans

variable {c : Char} {cs : List Char} {t : Token} {ts : List Token}

theorem nil : Scans [] [] := by
  intro position
  exact ⟨[], by rw [scan], rfl⟩

theorem cons {more : Nat} (visible : isBlank c = false) (hread : Token.read c cs = .ok (t, more))
    (h : Scans (cs.drop more) ts) : Scans (c :: cs) (t :: ts) := by
  intro position
  obtain ⟨ls, hls, rfl⟩ := h (position + utf8Length (c :: cs.take more))
  refine ⟨⟨t, position⟩ :: ls, ?_, rfl⟩
  rw [scan, if_neg (by rw [visible]; decide), hread]
  dsimp only
  rw [hls]
  rfl

theorem sign (ht : t.sign? = some c) (h : Scans cs ts) : Scans (c :: cs) (t :: ts) := by
  cases t <;> cases ht <;> exact cons (by decide +kernel) rfl h

theorem name {more : List Char} (visible : isBlank c = false) (apart : inNumber c = false)
    (starts : startsName c = true) (continues : ∀ d ∈ more, continuesName d = true)
    (ends : Ends continuesName cs) (h : Scans cs ts) :
    Scans (c :: (more ++ cs)) (.name (String.ofList (c :: more)) :: ts) :=
  cons visible (Token.read_name apart starts continues ends) (by rwa [List.drop_left])

theorem blank (hc : isBlank c = true) (h : Scans cs ts) : Scans (c :: cs) ts := by
  intro position
  rw [scan, if_pos hc]
  exact h _

theorem identifier {name : String} (hname : IsIdentifier name.toList) (ends : Ends continuesName cs)
    (h : Scans cs ts) : Scans (name.toList ++ cs) (.name name :: ts) := by
  obtain ⟨c, more, text, starts, continues⟩ := hname
  have named : name = String.ofList (c :: more) := by rw [← text, String.ofList_toList]
  obtain ⟨visible, apart⟩ := startsName_apart starts
  rw [text, named]
  exact Scans.name visible apart starts continues ends h

theorem number {text : String} {x : Float} (htext : ∀ c ∈ text.toList, inNumber c = true)
    (nonempty : text.toList ≠ []) (hread : readFloat? text = some x) (finite : x.isFinite = true)
    (stops : Stops cs) (h : Scans cs ts) : Scans (text.toList ++ cs) (.number x :: ts) := by
  obtain ⟨c, more, hmore⟩ := List.exists_cons_of_ne_nil nonempty
  rw [hmore] at htext
  have front : (c :: (more ++ cs)).takeWhile inNumber = c :: more :=
    takeWhile_of_ends htext (stops.ends (by decide) (by decide))
  have length : numberLength (c :: (more ++ cs)) = more.length + 1 := by
    rw [numberLength, front, ← List.cons_append, List.drop_left, stops.powerLength_eq, List.length_cons]
  have token : numberToken (c :: more) = .ok (.number x) := by
    rw [numberToken, ← hmore, String.ofList_toList, hread]
    exact if_pos finite
  have first := htext c List.mem_cons_self
  have hread : Token.read c (more ++ cs) = .ok (.number x, more.length) := by
    unfold Token.read
    rw [if_pos first, length]
    dsimp only
    rw [← List.cons_append, List.take_left' (List.length_cons ..), token]
    rfl
  rw [hmore, List.cons_append]
  exact cons (inNumber_visible first) hread (by rwa [List.drop_left])

end Scans

end Argand
