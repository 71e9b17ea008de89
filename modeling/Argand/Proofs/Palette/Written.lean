import Argand.Palette.Color
import Argand.Proofs.Span
import Mathlib.Control.Monad.Basic
import Mathlib.Data.List.Forall2
import Mathlib.Data.List.TakeWhile
import Mathlib.Data.Rat.Defs
import Mathlib.Tactic.IntervalCases

/-!
# Written colors

A color is written as six hexadecimal digits, two for each channel (`Color.Spells`). A text is read as a color if, but
for blanks around it (`Color.Bare`), it is such digits behind any number of number signs, or behind them a plus sign
and five such digits, as if it were the digit zero. No other text is, and the error tells the whole of it
(`Color.parse_exact`).

So more is read than colors that are written as they should be, with one number sign at most
(`Color.parse_careless`).
-/

namespace Argand

/-! ## Digits -/

/-- A hexadecimal digit and its value. Letters are small or capital ones. -/
def IsHexDigit (c : Char) (d : ℕ) : Prop :=
  d < 16 ∧ (c = d.digitChar ∨ c = d.digitChar.toUpper)

instance (c : Char) (d : ℕ) : Decidable (IsHexDigit c d) :=
  inferInstanceAs (Decidable (_ ∧ _))

theorem hexDigit?_eq_some {c : Char} {d : ℕ} : hexDigit? c = some d ↔ IsHexDigit c d := by
  constructor
  · intro h
    have ascii : c.toNat < 128 := by
      rw [hexDigit?] at h
      split_ifs at h with decimal small capital
      · exact lt_of_le_of_lt decimal.2 (by decide)
      · exact lt_of_le_of_lt small.2 (by decide)
      · exact lt_of_le_of_lt capital.2 (by decide)
    have digits : ∀ n < 128, ∀ d ∈ hexDigit? (.ofNat n), IsHexDigit (.ofNat n) d := by
      decide +kernel
    have digit := digits c.toNat ascii d
    rw [Char.ofNat_toNat] at digit
    exact digit h
  · rintro ⟨small, rfl | rfl⟩ <;> interval_cases d <;> rfl

/-- Digits are read as the number that they write. -/
theorem hexValue?_eq_some {cs : List Char} {n : ℕ} :
    hexValue? cs = some n ↔ ∃ ds, List.Forall₂ IsHexDigit cs ds ∧ ds.foldl (16 * · + ·) 0 = n := by
  have general (cs : List Char) : ∀ m, cs.foldlM (fun n c => (hexDigit? c).map (16 * n + ·)) m = some n ↔
      ∃ ds, List.Forall₂ IsHexDigit cs ds ∧ ds.foldl (16 * · + ·) m = n := by
    induction cs with
    | nil =>
      intro m
      simp
    | cons c cs ih =>
      intro m
      simp only [List.foldlM_cons, Option.bind_eq_bind, Option.bind_eq_some_iff, Option.map_eq_some_iff,
        hexDigit?_eq_some, ih, List.forall₂_cons_left_iff]
      constructor
      · rintro ⟨_, ⟨d, digit, rfl⟩, ds, digits, value⟩
        exact ⟨d :: ds, ⟨d, ds, digit, digits, rfl⟩, value⟩
      · rintro ⟨_, ⟨d, ds, digit, digits, rfl⟩, value⟩
        exact ⟨_, ⟨d, digit, rfl⟩, ds, digits, value⟩
  exact general cs 0

theorem lt_of_isHexDigit {cs : List Char} {ds : List ℕ} (digits : List.Forall₂ IsHexDigit cs ds) :
    ∀ d ∈ ds, d < 16 := by
  induction digits with
  | nil => simp
  | cons digit _ ih => exact List.forall_mem_cons.mpr ⟨digit.1, ih⟩

theorem visible_of_isHexDigit {cs : List Char} {ds : List ℕ} (digits : List.Forall₂ IsHexDigit cs ds) :
    ∀ c ∈ cs, isBlank c = false ∧ c ≠ '#' := by
  induction digits with
  | nil => simp
  | @cons c d _ _ digit _ ih =>
    refine List.forall_mem_cons.mpr ⟨?_, ih⟩
    obtain ⟨small, rfl | rfl⟩ := digit <;> interval_cases d <;> decide +kernel

/-! ## Blanks -/

theorem trimBlanks_of_visible {before cs after : List Char} (hbefore : ∀ c ∈ before, isBlank c = true)
    (hafter : ∀ c ∈ after, isBlank c = true) (visible : ∀ c ∈ cs, isBlank c = false) (nonempty : cs ≠ []) :
    trimBlanks (before ++ cs ++ after) = cs := by
  have starts : Ends isBlank (cs ++ after) := by
    obtain ⟨c, more, rfl⟩ := List.exists_cons_of_ne_nil nonempty
    exact visible c List.mem_cons_self
  have stops : Ends isBlank cs.reverse := by
    obtain ⟨c, more, h⟩ := List.exists_cons_of_ne_nil (List.reverse_ne_nil_iff.mpr nonempty)
    rw [h]
    exact visible c (List.mem_reverse.mp (h ▸ List.mem_cons_self))
  rw [trimBlanks, List.append_assoc, dropWhile_of_ends hbefore starts, List.reverse_append,
    dropWhile_of_ends (fun c hc => hafter c (List.mem_reverse.mp hc)) stops, List.reverse_reverse]

theorem exists_trimBlanks (cs : List Char) : ∃ before after, cs = before ++ trimBlanks cs ++ after ∧
    (∀ c ∈ before, isBlank c = true) ∧ ∀ c ∈ after, isBlank c = true := by
  let rest := cs.dropWhile isBlank
  refine ⟨cs.takeWhile isBlank, (rest.reverse.takeWhile isBlank).reverse, ?_, fun c hc => ?_, fun c hc => ?_⟩
  · have back : trimBlanks cs ++ (rest.reverse.takeWhile isBlank).reverse = rest := by
      rw [trimBlanks, ← List.reverse_append, List.takeWhile_append_dropWhile, List.reverse_reverse]
    rw [List.append_assoc, back, List.takeWhile_append_dropWhile]
  · exact List.mem_takeWhile_imp hc
  · exact List.mem_takeWhile_imp (List.mem_reverse.mp hc)

namespace Color

/-! ## Texts of colors -/

/-- But for blanks around it, a text is so many number signs with `body` behind them. -/
def Bare (text : List Char) (marks : ℕ) (body : List Char) : Prop :=
  ∃ before after, text = before ++ (List.replicate marks '#' ++ body) ++ after ∧
    (∀ c ∈ before, isBlank c = true) ∧ ∀ c ∈ after, isBlank c = true

variable {K : Type} [NatCast K] [Div K]

/-- Six digits and their color : two of them are a channel, in parts of 255. -/
inductive Spells : List Char → Color K → Prop
  | intro {cs : List Char} {r r' g g' b b' : ℕ} (digits : List.Forall₂ IsHexDigit cs [r, r', g, g', b, b']) :
    Spells cs ⟨((16 * r + r' : ℕ) : K) / ((255 : ℕ) : K), ((16 * g + g' : ℕ) : K) / ((255 : ℕ) : K),
      ((16 * b + b' : ℕ) : K) / ((255 : ℕ) : K)⟩

/-- What is read as a color : six digits, or a plus sign in place of a zero in front of five more. -/
def Reads (body : List Char) (c : Color K) : Prop :=
  Spells body c ∨ ∃ digits, body = '+' :: digits ∧ Spells ('0' :: digits) c

theorem ofNat_digits {cs : List Char} {r r' g g' b b' : ℕ}
    (digits : List.Forall₂ IsHexDigit cs [r, r', g, g', b, b']) :
    (ofNat ([r, r', g, g', b, b'].foldl (16 * · + ·) 0) : Color K) =
      ⟨((16 * r + r' : ℕ) : K) / ((255 : ℕ) : K), ((16 * g + g' : ℕ) : K) / ((255 : ℕ) : K),
        ((16 * b + b' : ℕ) : K) / ((255 : ℕ) : K)⟩ := by
  have small := lt_of_isHexDigit digits
  simp only [List.forall_mem_cons] at small
  simp only [ofNat, List.foldl_cons, List.foldl_nil]
  congr 3 <;> omega

theorem spells_iff {cs : List Char} {c : Color K} :
    Spells cs c ↔ cs.length = 6 ∧ ∃ n, hexValue? cs = some n ∧ ofNat n = c := by
  constructor
  · rintro ⟨digits⟩
    exact ⟨digits.length_eq, _, hexValue?_eq_some.mpr ⟨_, digits, rfl⟩, ofNat_digits digits⟩
  · rintro ⟨six, n, value, rfl⟩
    obtain ⟨ds, digits, rfl⟩ := hexValue?_eq_some.mp value
    match ds, digits.length_eq.symm.trans six with
    | [r, r', g, g', b, b'], _ =>
      rw [ofNat_digits digits]
      exact ⟨digits⟩

/-! ## Reading -/

/-- Digits without a plus sign in front. -/
def unsigned : List Char → List Char
  | '+' :: digits => digits
  | digits => digits

theorem hexDigit?_plus : hexDigit? '+' = none := by
  decide

theorem not_spells_plus {digits : List Char} {c : Color K} : ¬Spells ('+' :: digits) c := by
  rw [spells_iff]
  rintro ⟨-, n, value, -⟩
  exact absurd value (by simp [hexValue?, hexDigit?_plus])

theorem reads_iff {body : List Char} {c : Color K} :
    Reads body c ↔ body.length = 6 ∧ ∃ n, hexValue? (unsigned body) = some n ∧ ofNat n = c := by
  rw [Reads]
  by_cases signed : ∃ digits, body = '+' :: digits
  · obtain ⟨digits, rfl⟩ := signed
    have zero : hexValue? ('0' :: digits) = hexValue? digits := rfl
    rw [or_iff_right not_spells_plus]
    simp [spells_iff, unsigned, zero]
  · have plain : unsigned body = body := by
      unfold unsigned
      split
      · exact absurd ⟨_, rfl⟩ signed
      · rfl
    rw [plain, ← spells_iff]
    exact or_iff_left fun ⟨digits, h, _⟩ => signed ⟨digits, h⟩

/-- What is left of a text when blanks and number signs are taken away. -/
def bare (text : String) : List Char :=
  (trimBlanks text.toList).dropWhile (· = '#')

theorem parse_eq (text : String) : (parse text : Except PaletteError (Color K)) =
    match hexValue? (unsigned (bare text)) with
    | some n => if (bare text).length = 6 then .ok (ofNat n) else .error (.badColor text)
    | none => .error (.badColor text) :=
  rfl

theorem parse_eq_ok_iff {text : String} {c : Color K} : parse text = .ok c ↔ Reads (bare text) c := by
  rw [parse_eq, reads_iff]
  cases hexValue? (unsigned (bare text)) with
  | none => simp
  | some n =>
    dsimp only
    split <;> simp_all

theorem parse_eq_error_iff {text : String} {e : PaletteError} :
    (parse text : Except PaletteError (Color K)) = .error e ↔
      e = .badColor text ∧ ¬∃ c : Color K, Reads (bare text) c := by
  simp only [← parse_eq_ok_iff]
  rw [parse_eq]
  cases hexValue? (unsigned (bare text)) with
  | none => simp [eq_comm]
  | some n =>
    dsimp only
    split <;> simp [eq_comm]

/-! ## Whole texts -/

theorem Reads.visible {body : List Char} {c : Color K} (h : Reads body c) :
    ∀ x ∈ body, isBlank x = false ∧ x ≠ '#' := by
  rcases h with spells | ⟨digits, rfl, spells⟩
  · obtain ⟨digits⟩ := spells
    exact visible_of_isHexDigit digits
  · obtain ⟨digits⟩ := spells
    have plus : isBlank '+' = false ∧ '+' ≠ '#' := by decide +kernel
    exact List.forall_mem_cons.mpr ⟨plus, (List.forall_mem_cons.mp (visible_of_isHexDigit digits)).2⟩

theorem exists_bare (text : String) : ∃ marks, Bare text.toList marks (bare text) := by
  obtain ⟨before, after, split, hbefore, hafter⟩ := exists_trimBlanks text.toList
  have signs : ∀ c ∈ (trimBlanks text.toList).takeWhile (· = '#'), c = '#' := by
    intro c hc
    simpa using List.mem_takeWhile_imp hc
  refine ⟨((trimBlanks text.toList).takeWhile (· = '#')).length, before, after, ?_, hbefore, hafter⟩
  rw [← List.eq_replicate_of_mem signs, bare, List.takeWhile_append_dropWhile]
  exact split

theorem Bare.eq {text : String} {marks : ℕ} {body : List Char} {c : Color K} (h : Bare text.toList marks body)
    (reads : Reads body c) : trimBlanks text.toList = List.replicate marks '#' ++ body ∧ bare text = body := by
  obtain ⟨before, after, split, hbefore, hafter⟩ := h
  have six : body.length = 6 := (reads_iff.mp reads).1
  obtain ⟨x, more, rfl⟩ := List.exists_cons_of_length_eq_add_one six
  have visible : ∀ y ∈ List.replicate marks '#' ++ x :: more, isBlank y = false := by
    intro y hy
    rcases List.mem_append.mp hy with sign | digit
    · rw [List.eq_of_mem_replicate sign]
      decide +kernel
    · exact (reads.visible y digit).1
  have trimmed : trimBlanks text.toList = List.replicate marks '#' ++ x :: more := by
    rw [split]
    exact trimBlanks_of_visible hbefore hafter visible (by simp)
  have ends : Ends (· = '#') (x :: more) := decide_eq_false (reads.visible x List.mem_cons_self).2
  refine ⟨trimmed, ?_⟩
  rw [bare, trimmed]
  exact dropWhile_of_ends (fun y hy => decide_eq_true (List.eq_of_mem_replicate hy)) ends

theorem reads_bare_iff {text : String} {c : Color K} :
    Reads (bare text) c ↔ ∃ marks body, Bare text.toList marks body ∧ Reads body c := by
  constructor
  · intro reads
    obtain ⟨marks, h⟩ := exists_bare text
    exact ⟨marks, _, h, reads⟩
  · rintro ⟨marks, body, h, reads⟩
    rwa [(h.eq reads).2]

/-- A text is read as a color exactly if, but for blanks, it is six digits, or a plus sign and five digits, behind any
number of number signs. All other texts are refused as a whole. -/
theorem parse_exact (text : String) :
    (∀ c : Color K, parse text = .ok c ↔ ∃ marks body, Bare text.toList marks body ∧ Reads body c) ∧
    ∀ e, (parse text : Except PaletteError (Color K)) = .error e ↔
      e = .badColor text ∧ ¬∃ marks body, Bare text.toList marks body ∧ ∃ c : Color K, Reads body c := by
  refine ⟨fun c => parse_eq_ok_iff.trans reads_bare_iff, fun e => parse_eq_error_iff.trans ?_⟩
  simp only [reads_bare_iff]
  rw [exists_comm]
  simp only [exists_comm (α := Color K), exists_and_left]

/-- Two number signs are passed over, and a plus sign is taken for a zero, though neither text is six digits behind one
number sign at most. -/
theorem parse_careless :
    parse "##FF8000" = .ok (⟨1, 128 / 255, 0⟩ : Color ℚ) ∧
    parse "+12345" = .ok (⟨1 / 255, 35 / 255, 69 / 255⟩ : Color ℚ) ∧
    ∀ text ∈ ["##FF8000", "+12345"],
      ¬∃ marks ≤ 1, ∃ body, Bare text.toList marks body ∧ ∃ c : Color ℚ, Spells body c := by
  refine ⟨by decide +kernel, by decide +kernel, ?_⟩
  rintro text htext ⟨marks, few, body, h, c, spells⟩
  -- with its number signs, a color is as long as the text without blanks
  have six : body.length = 6 := (spells_iff.mp spells).1
  have trimmed := (h.eq (.inl spells)).1
  have length := congrArg List.length trimmed
  rw [List.length_append, List.length_replicate, six] at length
  simp only [List.mem_cons, List.not_mem_nil, or_false] at htext
  rcases htext with rfl | rfl
  · have eight : (trimBlanks "##FF8000".toList).length = 8 := by decide +kernel
    omega
  · have all : trimBlanks "+12345".toList = "+12345".toList := by decide +kernel
    rw [all] at trimmed length
    have plain : "+12345".toList.length = 6 := by decide
    obtain rfl : marks = 0 := by omega
    rw [List.replicate_zero, List.nil_append] at trimmed
    exact not_spells_plus (trimmed ▸ spells)

end Color

end Argand
