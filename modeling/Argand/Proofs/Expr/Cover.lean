import Argand.Expr.Grammar
import Argand.Proofs.Expr.Pieces
import Mathlib.Data.String.Basic

/-!
# Nothing is lost

A text that is cut into lexemes is made up of their pieces and of blanks (`Covers`). The pieces are in order and do
not overlap, each lexeme has the place where its piece begins, in bytes, and no character of a piece is a blank, so
the blanks are all that is left out. A piece is as long as it can be in front of what follows it, and two pieces that
touch are not parts of one name or of one run of digits and points (`scan_covers`).
-/

namespace Argand

/-- A piece of a text, with the blanks behind it. Blanks in front of the first piece have no piece to belong to, and
stand apart in `Covers`. -/
structure Piece where
  token : Token
  text : List Char
  gap : List Char

/-- The text that pieces and their blanks make up. -/
def textOf (pieces : List Piece) : List Char :=
  pieces.flatMap fun x => x.text ++ x.gap

/-- `Covers p cs ls lead pieces` : the text `cs`, which begins at the place `p`, consists of the blanks `lead` and of
pieces with blanks behind them, and these are the pieces of the lexemes `ls`. -/
structure Covers (p : ℕ) (cs : List Char) (ls : List Lexeme) (lead : List Char) (pieces : List Piece) : Prop where
  text : cs = lead ++ textOf pieces
  length : ls.length = pieces.length
  lexeme : ∀ before x after, pieces = before ++ x :: after →
    ls[before.length]? = some ⟨x.token, p + (String.ofList (lead ++ textOf before)).utf8ByteSize⟩
  piece : ∀ before x after, pieces = before ++ x :: after → IsPiece x.text (x.gap ++ textOf after) x.token
  lead_blank : ∀ c ∈ lead, isBlank c = true
  gap_blank : ∀ x ∈ pieces, ∀ c ∈ x.gap, isBlank c = true

theorem utf8ByteSize_ofList (cs : List Char) : (String.ofList cs).utf8ByteSize = utf8Length cs := by
  rw [String.utf8ByteSize_ofList]
  induction cs with
  | nil => rfl
  | cons c cs ih => rw [String.utf8Len_cons, ih, utf8Length_cons, Nat.add_comm]

/-! ## Cutting off one thing -/

namespace Covers

variable {p : ℕ} {cs lead : List Char} {ls : List Lexeme} {pieces : List Piece}

theorem nil : Covers p [] [] [] [] where
  text := rfl
  length := rfl
  lexeme before x after h := by simp at h
  piece before x after h := by simp at h
  lead_blank := by simp
  gap_blank := by simp

theorem blank {c : Char} (hc : isBlank c = true) (h : Covers (p + c.utf8Size) cs ls lead pieces) :
    Covers p (c :: cs) ls (c :: lead) pieces where
  text := by rw [h.text, List.cons_append]
  length := h.length
  lexeme before x after split := by
    rw [h.lexeme before x after split, utf8ByteSize_ofList, utf8ByteSize_ofList, List.cons_append, utf8Length_cons,
      Nat.add_assoc]
  piece := h.piece
  lead_blank := List.forall_mem_cons.mpr ⟨hc, h.lead_blank⟩
  gap_blank := h.gap_blank

theorem cons {t : Token} {piece : List Char} (first : IsPiece piece cs t)
    (h : Covers (p + utf8Length piece) cs ls lead pieces) :
    Covers p (piece ++ cs) (⟨t, p⟩ :: ls) [] (⟨t, piece, lead⟩ :: pieces) where
  text := by
    rw [h.text]
    simp [textOf]
  length := by rw [List.length_cons, List.length_cons, h.length]
  lexeme before x after split := by
    rcases List.cons_eq_append_iff.mp split with ⟨rfl, here⟩ | ⟨before, rfl, later⟩
    · cases here
      rfl
    · rw [List.length_cons, List.getElem?_cons_succ, h.lexeme before x after later]
      simp only [utf8ByteSize_ofList, textOf, List.flatMap_cons, List.nil_append, List.append_assoc,
        utf8Length_append, Nat.add_assoc]
  piece before x after split := by
    rcases List.cons_eq_append_iff.mp split with ⟨rfl, here⟩ | ⟨before, rfl, later⟩
    · cases here
      rwa [← h.text]
    · exact h.piece before x after later
  lead_blank := by simp
  gap_blank := List.forall_mem_cons.mpr ⟨h.lead_blank, h.gap_blank⟩

end Covers

theorem Lexed.exists_covers {p q : ℕ} {cs : List Char} {ls : List Lexeme} (h : Lexed p cs ls q []) :
    ∃ lead pieces, Covers p cs ls lead pieces := by
  generalize hrest : ([] : List Char) = rest at h
  induction h with
  | nil =>
    subst hrest
    exact ⟨_, _, .nil⟩
  | blank blank _ ih =>
    obtain ⟨lead, pieces, covers⟩ := ih hrest
    exact ⟨_, _, covers.blank blank⟩
  | piece first _ ih =>
    obtain ⟨lead, pieces, covers⟩ := ih hrest
    exact ⟨_, _, covers.cons first⟩

/-! ## Characters of pieces -/

theorem isBlank_of_isDigit {c : Char} (h : isDigit c = true) : isBlank c = false :=
  inNumber_visible (by rw [inNumber, h, Bool.true_or])

theorem isBlank_of_isNumeric {c : Char} (h : isNumeric c = true) : isBlank c = false := by
  rw [isNumeric] at h
  split at h
  · rename_i small
    have least : 48 ≤ c.toNat := of_decide_eq_true (Bool.and_eq_true_iff.mp h).1
    exact isBlank_of_lt small (by omega)
  · exact RangeTable.contains_eq_false (by decide +kernel) h

theorem isBlank_of_continuesName {c : Char} (h : continuesName c = true) : isBlank c = false := by
  rw [continuesName, Bool.or_eq_true, Bool.or_eq_true, decide_eq_true_eq] at h
  rcases h with (letter | numeral) | rfl
  · exact isBlank_of_isAlphabetic letter
  · exact isBlank_of_isNumeric numeral
  · decide +kernel

theorem IsPower.visible {cs : List Char} (h : IsPower cs) : ∀ c ∈ cs, isBlank c = false := by
  obtain ⟨small, signed, -, digit⟩ := h
  refine List.forall_mem_cons.mpr ⟨?_, fun c hc => ?_⟩
  · rcases small with rfl | rfl <;> decide +kernel
  · rcases List.mem_append.mp hc with hc | hc
    · have sign : c = '+' ∨ c = '-' := by
        rcases signed with rfl | rfl | rfl <;> simp_all
      rcases sign with rfl | rfl <;> decide +kernel
    · exact isBlank_of_isDigit (digit c hc)

theorem IsNumeral.visible {cs rest : List Char} (h : IsNumeral cs rest) : ∀ c ∈ cs, isBlank c = false := by
  cases h with
  | plain _ inside _ _ => exact fun c hc => inNumber_visible (inside c hc)
  | scaled _ inside scale _ =>
    intro c hc
    rcases List.mem_append.mp hc with hc | hc
    · exact inNumber_visible (inside c hc)
    · exact scale.visible c hc

/-- No piece has a blank. -/
theorem IsPiece.visible {cs rest : List Char} {t : Token} (h : IsPiece cs rest t) : ∀ c ∈ cs, isBlank c = false := by
  cases h with
  | sign sign =>
    rintro c hc
    rw [List.mem_singleton.mp hc]
    exact (Token.read_sign sign []).1
  | name identifier _ => exact fun c hc => isBlank_of_continuesName (identifier.continues c hc)
  | number numeral _ _ => exact numeral.visible

/-! ## Pieces that touch -/

/-- Where a name ends no other one begins. -/
theorem IsPiece.not_name_of_name {cs ds rest : List Char} {s t : String} (h : IsPiece cs (ds ++ rest) (.name s)) :
    ¬IsPiece ds rest (.name t) := by
  intro next
  cases h with
  | sign sign => cases sign
  | name _ ends =>
    cases next with
    | sign sign => cases sign
    | name identifier _ =>
      obtain ⟨d, more, rfl, starts, continues⟩ := identifier
      have ends : continuesName d = false := ends
      have goes := IsIdentifier.continues ⟨d, more, rfl, starts, continues⟩ d List.mem_cons_self
      rw [ends] at goes
      cases goes

/-- Where a number ends another one begins only if the first has a power of ten. -/
theorem IsPiece.power_of_number {cs ds rest : List Char} {x y : Float} (h : IsPiece cs (ds ++ rest) (.number x))
    (next : IsPiece ds rest (.number y)) : ∃ c ∈ cs, inNumber c = false := by
  cases next with
  | sign sign => cases sign
  | number numeral' _ _ =>
    obtain ⟨d, more, rfl⟩ := numeral'.exists_cons
    cases h with
    | sign sign => cases sign
    | number numeral _ _ =>
      cases numeral with
      | plain _ _ ends _ =>
        have ends : inNumber d = false := ends
        rw [numeral'.inNumber] at ends
        cases ends
      | @scaled front power _ _ _ scale _ =>
        have outside := scale.ends []
        obtain ⟨small, -, -, -⟩ := scale
        exact ⟨_, List.mem_append_right front List.mem_cons_self, outside⟩

namespace Covers

variable {p : ℕ} {cs lead : List Char} {ls : List Lexeme} {pieces : List Piece}

theorem visible (h : Covers p cs ls lead pieces) : ∀ x ∈ pieces, ∀ c ∈ x.text, isBlank c = false := by
  intro x hx
  obtain ⟨before, after, split⟩ := List.append_of_mem hx
  exact (h.piece before x after split).visible

/-- Two pieces that touch, each with what follows it. -/
theorem touching (h : Covers p cs ls lead pieces) {before after : List Piece} {x y : Piece}
    (split : pieces = before ++ x :: y :: after) (touch : x.gap = []) :
    IsPiece x.text (y.text ++ (y.gap ++ textOf after)) x.token ∧ IsPiece y.text (y.gap ++ textOf after) y.token := by
  have first := h.piece before x (y :: after) split
  have second := h.piece (before ++ [x]) y after (by rw [split, List.append_assoc, List.singleton_append])
  rw [touch, List.nil_append, textOf, List.flatMap_cons, List.append_assoc] at first
  exact ⟨first, second⟩

end Covers

/-- A text that is cut into lexemes consists of their pieces, in order, and of blanks : the lexemes are at the places of
their pieces, and no piece has a blank. No piece could be longer, and none is cut in two : of two names one does not
touch the other, and of two numbers only if the first has a power of ten. The lexemes are read as an expression whose
end is at the length of the text. -/
theorem scan_covers {source : String} {ls : List Lexeme} (h : scan 0 source.toList = .ok ls) :
    ∃ lead pieces, Covers 0 source.toList ls lead pieces ∧
      (∀ x ∈ pieces, ∀ c ∈ x.text, isBlank c = false) ∧
      (∀ before x y after, pieces = before ++ x :: y :: after → x.gap = [] →
        (∀ s t, x.token = .name s → y.token ≠ .name t) ∧
        ∀ a b, x.token = .number a → y.token = .number b → ∃ c ∈ x.text, inNumber c = false) ∧
      Expr.parse source = Expr.ofLexemes source.utf8ByteSize ls := by
  have lexed := scan_eq_ok_iff.mp h
  obtain ⟨lead, pieces, covers⟩ := lexed.exists_covers
  refine ⟨lead, pieces, covers, covers.visible, fun before x y after split touch => ⟨?_, ?_⟩, ?_⟩
  · intro s t hx hy
    obtain ⟨first, second⟩ := covers.touching split touch
    rw [hx] at first
    rw [hy] at second
    exact first.not_name_of_name second
  · intro a b hx hy
    obtain ⟨first, second⟩ := covers.touching split touch
    rw [hx] at first
    rw [hy] at second
    exact first.power_of_number second
  · have size : source.utf8ByteSize = utf8Length source.toList := by
      rw [← utf8ByteSize_ofList, String.ofList_toList]
    rw [size, Expr.parse, h]
    rfl

/-- One `e` is a name and another one begins a power of ten, two numbers touch, and the blank has three bytes. -/
theorem scan_covers_touching :
    let source := "2e+.5e1.5\u3000x2y"
    let ls : List Lexeme := [⟨.number 2, 0⟩, ⟨.name "e", 1⟩, ⟨.plus, 2⟩, ⟨.number 5, 3⟩, ⟨.number 0.5, 7⟩,
      ⟨.name "x2y", 12⟩]
    scan 0 source.toList = .ok ls ∧ Expr.parse source = Expr.ofLexemes 15 ls ∧
      ∃ lead pieces, Covers 0 source.toList ls lead pieces := by
  intro source ls
  have lexemes : scan 0 source.toList = .ok ls := by decide +kernel
  obtain ⟨lead, pieces, covers, -, -, parse⟩ := scan_covers lexemes
  have size : source.utf8ByteSize = 15 := by decide +kernel
  exact ⟨lexemes, size ▸ parse, lead, pieces, covers⟩

end Argand
