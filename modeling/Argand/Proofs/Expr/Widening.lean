import Mathlib.Algebra.BigOperators.Group.Finset.Basic
import Argand.Proofs.Expr.Cover
import Argand.Proofs.Expr.Places

/-!
# Blanks between tokens

Blanks put into a text where no token is cut by them change nothing but places. `widen` puts them in, at every place
those that belong there, and `Between` says at which places a text has no token to cut : before its first token,
between two of them, among its blanks, and behind a flaw. The rules by which a text is cut into lexemes then carry
over to the widened text rule by rule (`IsPiece.widen`, `Flaw.widen`, `Lexed.widen`). Since readers do not look at
places (`Expr.ofLexemes_move`), `Expr.parse_widen` says that the widened text is read as the same expression, or fails
for the same cause, with all blanks put in up to the place of the failure before it.
-/

namespace Argand

/-! ## Cuts of one text -/

theorem IsPiece.unique {cs ds rest rest' : List Char} {t t' : Token} (h : IsPiece cs rest t)
    (h' : IsPiece ds rest' t') (same : cs ++ rest = ds ++ rest') : t = t' ∧ cs = ds ∧ rest = rest' := by
  obtain ⟨c, more, rfl⟩ := h.exists_cons
  obtain ⟨d, more', rfl⟩ := h'.exists_cons
  obtain ⟨rfl, tail⟩ := List.cons.inj same
  have reads := h.read.2
  rw [List.append_eq, List.append_eq] at tail
  rw [tail, h'.read.2] at reads
  obtain ⟨rfl, length⟩ := Prod.mk.inj (Except.ok.inj reads)
  obtain ⟨rfl, rfl⟩ := List.append_inj tail length.symm
  exact ⟨rfl, rfl, rfl⟩

namespace Lexed

variable {p q r : ℕ} {c : Char} {cs rest rest' : List Char} {ls ls' : List Lexeme}

theorem trans (h : Lexed p cs ls q rest) (h' : Lexed q rest ls' r rest') : Lexed p cs (ls ++ ls') r rest' := by
  induction h with
  | nil => exact h'
  | blank blank _ ih => exact .blank blank (ih h')
  | piece first _ ih => exact .piece first (ih h')

theorem exists_append (h : Lexed p cs ls q rest) : ∃ read, cs = read ++ rest ∧ q = p + utf8Length read := by
  induction h with
  | nil => exact ⟨[], rfl, rfl⟩
  | @blank _ _ c _ _ _ _ _ ih =>
    obtain ⟨read, rfl, rfl⟩ := ih
    exact ⟨c :: read, rfl, by rw [utf8Length_cons, Nat.add_assoc]⟩
  | @piece _ _ _ piece _ _ _ _ _ ih =>
    obtain ⟨read, rfl, rfl⟩ := ih
    exact ⟨piece ++ read, (List.append_assoc ..).symm, by rw [utf8Length_append, Nat.add_assoc]⟩

theorem le (h : Lexed p cs ls q rest) : p ≤ q := by
  obtain ⟨read, -, rfl⟩ := h.exists_append
  exact Nat.le_add_right ..

/-- A cut at a blank goes no further or takes the blank. -/
theorem of_blank (h : Lexed p (c :: cs) ls q rest) (blank : isBlank c = true) :
    q = p ∧ rest = c :: cs ∨ Lexed (p + c.utf8Size) cs ls q rest := by
  generalize htext : c :: cs = text at h
  cases h with
  | nil => exact .inl ⟨rfl, rfl⟩
  | blank _ others =>
    obtain ⟨rfl, rfl⟩ := List.cons.inj htext
    exact .inr others
  | piece first _ =>
    obtain ⟨d, more, rfl⟩ := first.exists_cons
    obtain ⟨rfl, -⟩ := List.cons.inj htext
    rw [first.read.1] at blank
    cases blank

/-- A cut at a piece goes no further or takes the whole of it. -/
theorem of_piece {piece : List Char} {t : Token} (h : Lexed p (piece ++ cs) ls q rest) (first : IsPiece piece cs t) :
    q = p ∧ rest = piece ++ cs ∨ ∃ ls', Lexed (p + utf8Length piece) cs ls' q rest := by
  generalize htext : piece ++ cs = text at h
  cases h with
  | nil => exact .inl ⟨rfl, rfl⟩
  | blank blank _ =>
    obtain ⟨d, more, rfl⟩ := first.exists_cons
    obtain ⟨rfl, -⟩ := List.cons.inj htext
    rw [first.read.1] at blank
    cases blank
  | piece first' others =>
    obtain ⟨-, rfl, rfl⟩ := first.unique first' htext
    exact .inr ⟨_, others⟩

/-- No cut goes further than a flaw. -/
theorem of_flaw {cause : SyntaxCause} (h : Lexed p cs ls q rest) (flaw : Flaw cs cause) : q = p ∧ rest = cs := by
  cases h with
  | nil => exact ⟨rfl, rfl⟩
  | blank blank _ =>
    rw [flaw.read.1] at blank
    cases blank
  | piece first _ =>
    obtain ⟨d, more, rfl⟩ := first.exists_cons
    have reads := flaw.read.2
    rw [List.append_eq, first.read.2] at reads
    cases reads

/-- Of two cuts of a text one goes on from where the other ends. -/
theorem compare (h : Lexed p cs ls q rest) (h' : Lexed p cs ls' r rest') :
    (∃ more, Lexed q rest more r rest') ∨ ∃ more, Lexed r rest' more q rest := by
  induction h generalizing ls' with
  | nil => exact .inl ⟨_, h'⟩
  | blank blank others ih =>
    rcases h'.of_blank blank with ⟨rfl, rfl⟩ | others'
    · exact .inr ⟨_, .blank blank others⟩
    · exact ih others'
  | piece first others ih =>
    rcases h'.of_piece first with ⟨rfl, rfl⟩ | ⟨_, others'⟩
    · exact .inr ⟨_, .piece first others⟩
    · exact ih others'

end Lexed

/-- A token that is read begins a cut. -/
theorem Lexed.of_read {c : Char} {cs : List Char} {t : Token} {n : ℕ} (visible : isBlank c = false)
    (hread : Token.read c cs = .ok (t, n)) (p : ℕ) :
    Lexed p (c :: cs) [⟨t, p⟩] (p + utf8Length (c :: cs.take n)) (cs.drop n) := by
  rcases Token.read_cases cs visible with ⟨t', more, rest, rfl, piece⟩ | ⟨cause, flaw⟩
  · rw [piece.read.2] at hread
    obtain ⟨rfl, rfl⟩ := Prod.mk.inj (Except.ok.inj hread)
    rw [List.take_left, List.drop_left]
    exact .piece piece .nil
  · rw [flaw.read.2] at hread
    cases hread

/-! ## Places between tokens -/

/-- `IsStep cs rest` : in front of `rest`, the text `cs` is taken at one go, as a blank, as a piece, or as a number
that is a flaw. -/
inductive IsStep : List Char → List Char → Prop
  | blank {c : Char} {rest : List Char} (blank : isBlank c = true) : IsStep [c] rest
  | piece {cs rest : List Char} {t : Token} (piece : IsPiece cs rest t) : IsStep cs rest
  | numeral {cs rest : List Char} {cause : SyntaxCause} (numeral : IsNumeral cs rest)
      (flaw : Flaw (cs ++ rest) cause) : IsStep cs rest

/-- A place that is not inside anything that is taken at one go when the text is cut. -/
def Between (text : List Char) (p : ℕ) : Prop :=
  ∀ ls q cs rest, Lexed 0 text ls q (cs ++ rest) → IsStep cs rest → p ≤ q ∨ q + utf8Length cs ≤ p

theorem utf8Length_singleton (c : Char) : utf8Length [c] = c.utf8Size :=
  Nat.zero_add _

theorem IsStep.le {p q : ℕ} {cs rest rest' : List Char} {ls : List Lexeme} (h : IsStep cs rest)
    (lexed : Lexed p (cs ++ rest) ls q rest') : q = p ∨ p + utf8Length cs ≤ q := by
  cases h with
  | @blank c _ blank =>
    rw [utf8Length_singleton]
    exact (lexed.of_blank blank).imp And.left Lexed.le
  | piece piece => exact (lexed.of_piece piece).imp And.left fun ⟨_, others⟩ => others.le
  | numeral _ flaw => exact .inl (lexed.of_flaw flaw).1

/-- A place to which a text can be cut. -/
theorem Lexed.between {text rest : List Char} {p : ℕ} {ls : List Lexeme} (h : Lexed 0 text ls p rest) :
    Between text p := by
  intro ls' q cs rest' here step
  -- what is taken at one go is taken on the way to the place, or comes after it
  rcases here.compare h with ⟨_, onward⟩ | ⟨_, back⟩
  · exact (step.le onward).imp Nat.le_of_eq id
  · exact .inl back.le

/-- The end of a text. -/
theorem between_utf8Length (text : List Char) : Between text (utf8Length text) := by
  intro ls q cs rest here _
  obtain ⟨read, rfl, rfl⟩ := here.exists_append
  rw [utf8Length_append, utf8Length_append]
  exact .inr (by omega)

/-! ## Putting blanks in -/

/-- The text with the characters `gaps p` put in at every place `p`. -/
def widen (gaps : ℕ → List Char) (p : ℕ) : List Char → List Char
  | [] => gaps p
  | c :: cs => gaps p ++ c :: widen gaps (p + c.utf8Size) cs

/-- Only blanks are put into a text, and only between its tokens. -/
structure Spaces (gaps : ℕ → List Char) (text : List Char) : Prop where
  blank : ∀ p, ∀ c ∈ gaps p, isBlank c = true
  between : ∀ p, gaps p ≠ [] → Between text p

/-- How much is put in before a place. -/
def gapsBefore (gaps : ℕ → List Char) (p : ℕ) : ℕ :=
  ∑ q ∈ Finset.range p, utf8Length (gaps q)

/-- The place with what is put in up to there before it. -/
def widenedPlace (gaps : ℕ → List Char) (p : ℕ) : ℕ :=
  p + gapsBefore gaps (p + 1)

/-- Nothing is put in inside `n` bytes from a place on. -/
def NoGap (gaps : ℕ → List Char) (p n : ℕ) : Prop :=
  ∀ q, p < q → q < p + n → gaps q = []

variable {gaps : ℕ → List Char} {p q : ℕ} {c : Char} {cs ds rest after text : List Char} {ls : List Lexeme}

theorem gapsBefore_succ (gaps : ℕ → List Char) (p : ℕ) :
    gapsBefore gaps (p + 1) = gapsBefore gaps p + utf8Length (gaps p) :=
  Finset.sum_range_succ _ p

theorem NoGap.place_add {n : ℕ} (h : NoGap gaps p n) (nonempty : 0 < n) :
    p + n + gapsBefore gaps (p + n) = widenedPlace gaps p + n := by
  have same : gapsBefore gaps (p + 1) = gapsBefore gaps (p + n) := by
    refine Finset.sum_subset (Finset.range_mono (by omega)) fun q hq outside => ?_
    rw [Finset.mem_range] at hq outside
    rw [h q (by omega) hq]
    rfl
  rw [widenedPlace, same, Nat.add_right_comm]

theorem utf8Length_pos (c : Char) (cs : List Char) : 0 < utf8Length (c :: cs) := by
  rw [utf8Length_cons]
  exact Nat.add_pos_left c.utf8Size_pos _

theorem NoGap.widen_eq (h : NoGap gaps p (utf8Length (c :: cs))) (rest : List Char) :
    widen gaps p (c :: cs ++ rest) = gaps p ++ (c :: cs ++ widen gaps (p + utf8Length (c :: cs)) rest) := by
  induction cs generalizing p c with
  | nil => rw [List.cons_append, widen, utf8Length_cons]; rfl
  | cons d cs ih =>
    rw [utf8Length_cons] at h
    have size := c.utf8Size_pos
    have more := utf8Length_pos d cs
    have first : gaps (p + c.utf8Size) = [] := h _ (by omega) (by omega)
    have others : NoGap gaps (p + c.utf8Size) (utf8Length (d :: cs)) := by
      intro q low high
      exact h q (by omega) (by omega)
    rw [List.cons_append, widen, ih others, first, List.nil_append, utf8Length_cons c, ← Nat.add_assoc]
    rfl

/-- What is put into a text is not taken for what has been there. -/
theorem exists_of_widen_eq (blank : ∀ p, ∀ c ∈ gaps p, isBlank c = true) (visible : ∀ d ∈ ds, isBlank d = false)
    (h : widen gaps p cs = ds ++ after) : ∃ after, cs = ds ++ after := by
  induction ds generalizing p cs with
  | nil => exact ⟨cs, rfl⟩
  | cons d ds ih =>
    obtain ⟨first, others⟩ := List.forall_mem_cons.mp visible
    -- a blank that is put in here would be `d`
    have none : gaps p = [] := by
      cases hgap : gaps p with
      | nil => rfl
      | cons b gap =>
        have same : b = d := by cases cs <;> rw [widen, hgap] at h <;> exact (List.cons.inj h).1
        have := blank p b (hgap ▸ List.mem_cons_self)
        rw [same, first] at this
        cases this
    cases cs with
    | nil =>
      rw [widen, none] at h
      cases h
    | cons c cs =>
      rw [widen, none] at h
      obtain ⟨rfl, tail⟩ := List.cons.inj h
      obtain ⟨after, rfl⟩ := ih others tail
      exact ⟨after, rfl⟩

theorem ends_widen {kind : Char → Bool} (blank : ∀ p, ∀ c ∈ gaps p, isBlank c = true)
    (visible : ∀ c, kind c = true → isBlank c = false) (h : Ends kind cs) : Ends kind (widen gaps p cs) := by
  have apart (b : Char) (hb : isBlank b = true) : kind b = false := by
    refine Bool.eq_false_iff.mpr fun hkind => ?_
    rw [visible b hkind] at hb
    cases hb
  cases hgap : gaps p with
  | nil =>
    cases cs with
    | nil =>
      rw [widen, hgap]
      trivial
    | cons c cs =>
      rw [widen, hgap]
      exact h
  | cons b gap =>
    have := apart b (blank p b (hgap ▸ List.mem_cons_self))
    cases cs <;> rw [widen, hgap] <;> exact this

/-! ## The rules in a widened text -/

theorem IsNumeral.widen (blank : ∀ p, ∀ c ∈ gaps p, isBlank c = true) (h : IsNumeral cs rest) (p : ℕ) :
    IsNumeral cs (widen gaps p rest) := by
  cases h with
  | plain nonempty inside ends unscaled =>
    have ends' := ends_widen (p := p) blank (fun _ => inNumber_visible) ends
    refine .plain nonempty inside ends' fun power after split scale => ?_
    obtain ⟨after, rfl⟩ := exists_of_widen_eq blank scale.visible split
    exact unscaled power after rfl scale
  | scaled nonempty inside scale ends =>
    exact .scaled nonempty inside scale (ends_widen blank (fun _ => isBlank_of_isDigit) ends)

theorem IsPiece.widen {t : Token} (blank : ∀ p, ∀ c ∈ gaps p, isBlank c = true) (h : IsPiece cs rest t) (p : ℕ) :
    IsPiece cs (widen gaps p rest) t := by
  cases h with
  | sign sign => exact .sign sign
  | name identifier ends => exact .name identifier (ends_widen blank (fun _ => isBlank_of_continuesName) ends)
  | number numeral value finite => exact .number (numeral.widen blank p) value finite

/-- What is taken at one go stays together. -/
theorem IsStep.noGap (spaces : Spaces gaps text) (h : IsStep cs rest) (here : Lexed 0 text ls q (cs ++ rest)) :
    NoGap gaps q (utf8Length cs) := by
  intro p low high
  by_contra some
  rcases spaces.between p some ls q cs rest here h with before | behind <;> omega

theorem Flaw.widen {cause : SyntaxCause} (spaces : Spaces gaps text) (h : Flaw cs cause)
    (here : Lexed 0 text ls q cs) : ∃ after, widen gaps q cs = gaps q ++ after ∧ Flaw after cause := by
  have together {front rest : List Char} (numeral : IsNumeral front rest) (flaw : Flaw (front ++ rest) cause)
      (here : Lexed 0 text ls q (front ++ rest)) :
      Argand.widen gaps q (front ++ rest) =
        gaps q ++ (front ++ Argand.widen gaps (q + utf8Length front) rest) := by
    have noGap := (IsStep.numeral numeral flaw).noGap spaces here
    obtain ⟨c, more, rfl⟩ := numeral.exists_cons
    exact noGap.widen_eq rest
  cases h with
  | character visible number name sign => exact ⟨_, rfl, .character visible number name sign⟩
  | malformed numeral value =>
    exact ⟨_, together numeral (.malformed numeral value) here, .malformed (numeral.widen spaces.blank _) value⟩
  | outOfRange numeral value infinite =>
    exact ⟨_, together numeral (.outOfRange numeral value infinite) here,
      .outOfRange (numeral.widen spaces.blank _) value infinite⟩

theorem Lexed.of_blanks (h : ∀ c ∈ ds, isBlank c = true) (p : ℕ) (rest : List Char) :
    Lexed p (ds ++ rest) [] (p + utf8Length ds) rest := by
  induction ds generalizing p with
  | nil => exact .nil
  | cons d ds ih =>
    obtain ⟨first, others⟩ := List.forall_mem_cons.mp h
    rw [utf8Length_cons, ← Nat.add_assoc]
    exact .blank first (ih others _)

/-- The blanks put in at a place, in front of what is there. -/
theorem Lexed.of_gap (blank : ∀ p, ∀ c ∈ gaps p, isBlank c = true) (p : ℕ) (rest : List Char) :
    Lexed (p + gapsBefore gaps p) (gaps p ++ rest) [] (widenedPlace gaps p) rest := by
  rw [widenedPlace, gapsBefore_succ, ← Nat.add_assoc]
  exact .of_blanks (blank p) _ rest

/-- A cut of a text is one of the widened text, with every place moved. -/
theorem Lexed.widen {before : List Lexeme} (spaces : Spaces gaps text) (here : Lexed 0 text before p cs)
    (h : Lexed p cs ls q rest) :
    Lexed (p + gapsBefore gaps p) (widen gaps p cs) (ls.map (Lexeme.move (widenedPlace gaps)))
      (q + gapsBefore gaps q) (widen gaps q rest) := by
  -- the cut from the start of the text is carried along, as it tells where tokens must not be cut
  induction h generalizing before with
  | nil => exact .nil
  | @blank p _ c cs _ _ hc _ ih =>
    have others := ih (here.trans (.blank hc .nil))
    have place := ((IsStep.blank hc).noGap spaces here).place_add (utf8Length_pos c [])
    rw [utf8Length_singleton] at place
    rw [place] at others
    exact (Lexed.of_gap spaces.blank p _).trans (.blank hc others)
  | @piece p _ t piece cs _ _ first _ ih =>
    have others := ih (here.trans (.piece first .nil))
    have noGap := (IsStep.piece first).noGap spaces here
    obtain ⟨c, more, rfl⟩ := first.exists_cons
    rw [noGap.place_add (utf8Length_pos c more)] at others
    rw [noGap.widen_eq]
    exact (Lexed.of_gap spaces.blank p _).trans (.piece (first.widen spaces.blank _) others)

/-- A text that is cut to its end is so with the blanks put in, and its end is moved with its lexemes. -/
theorem Lexed.widen_end (spaces : Spaces gaps text) (h : Lexed 0 text ls (utf8Length text) []) :
    scan 0 (Argand.widen gaps 0 text) = .ok (ls.map (Lexeme.move (widenedPlace gaps))) ∧
      utf8Length (Argand.widen gaps 0 text) = widenedPlace gaps (utf8Length text) := by
  have cut := Lexed.nil.widen spaces h
  have last := Lexed.of_gap spaces.blank (utf8Length text) []
  rw [List.append_nil] at last
  have whole := cut.trans last
  rw [List.append_nil] at whole
  obtain ⟨read, split, place⟩ := whole.exists_append
  rw [List.append_nil] at split
  have length : utf8Length (Argand.widen gaps 0 text) = widenedPlace gaps (utf8Length text) := by
    rw [split, place]
    exact (Nat.zero_add _).symm
  refine ⟨scan_eq_ok_iff.mpr ?_, length⟩
  rw [length, Nat.zero_add]
  exact whole

/-- What a text is not cut beyond is a flaw of the widened text, too. -/
theorem Lexed.widen_flaw {cause : SyntaxCause} (spaces : Spaces gaps text) (h : Lexed 0 text ls q rest)
    (flaw : Flaw rest cause) : scan 0 (Argand.widen gaps 0 text) = .error ⟨widenedPlace gaps q, cause⟩ := by
  obtain ⟨after, split, flaw'⟩ := flaw.widen spaces h
  have cut := Lexed.nil.widen spaces h
  rw [split] at cut
  exact scan_eq_error_iff.mpr ⟨_, after, cut.trans (Lexed.of_gap spaces.blank q after), flaw'⟩

/-- Blanks put in where a text has no token to cut, before its first token, behind its last or between two of them,
leave an expression what it is. A failure keeps its cause, and its place has what is put in up to there before it. -/
theorem Expr.parse_widen (source : String) :
    (∀ ls p rest, Lexed 0 source.toList ls p rest → Between source.toList p) ∧
    Between source.toList (utf8Length source.toList) ∧
    ∀ gaps : ℕ → List Char, Spaces gaps source.toList →
      parse (String.ofList (widen gaps 0 source.toList)) =
        (parse source).mapError (SyntaxError.move (widenedPlace gaps)) := by
  refine ⟨fun _ _ _ => Lexed.between, between_utf8Length _, fun gaps spaces => ?_⟩
  rw [parse, parse, String.toList_ofList]
  rcases exists_lexed 0 source.toList with ⟨ls, lexed⟩ | ⟨ls, q, rest, cause, lexed, flaw⟩
  · rw [scan_eq_ok_iff.mpr lexed]
    rw [Nat.zero_add] at lexed
    obtain ⟨lexemes, length⟩ := lexed.widen_end spaces
    rw [lexemes, length]
    exact ofLexemes_move (widenedPlace gaps) (utf8Length source.toList) ls
  · have fails : scan 0 source.toList = .error ⟨q, cause⟩ := scan_eq_error_iff.mpr ⟨ls, rest, lexed, flaw⟩
    rw [lexed.widen_flaw spaces flaw, fails]
    rfl

/-- A number, a name, a sign and a call that is not closed : blanks of one byte and of three are put in at the start,
between the number and the name, which do not make a power of ten, and at the end, where the failure is. -/
theorem Expr.parse_widen_apart :
    let source := "2e-f(3"
    let gaps : ℕ → List Char
      | 0 => ['\n']
      | 1 => ['\u3000', ' ']
      | 2 => ['\t']
      | 6 => [' ']
      | _ => []
    widen gaps 0 source.toList = "\n2\u3000 e\t-f(3 ".toList ∧
      parse source = .error ⟨6, .expectedCommaOrClosing⟩ ∧
      parse (String.ofList (widen gaps 0 source.toList)) = .error ⟨13, .expectedCommaOrClosing⟩ := by
  intro source gaps
  have text : source.toList = ['2', 'e', '-', 'f', '(', '3'] := by decide +kernel
  have length : utf8Length source.toList = 6 := by decide +kernel
  have fails : parse source = .error ⟨6, .expectedCommaOrClosing⟩ := by
    have lexemes : scan 0 source.toList =
        .ok [⟨.number 2, 0⟩, ⟨.name "e", 1⟩, ⟨.minus, 2⟩, ⟨.name "f", 3⟩, ⟨.opening, 4⟩, ⟨.number 3, 5⟩] := by
      decide +kernel
    rw [parse, lexemes, length]
    rfl
  obtain ⟨cut, last, widened⟩ := parse_widen source
  rw [length] at last
  have number : Lexed 0 source.toList [⟨.number 2, 0⟩] 1 ['e', '-', 'f', '(', '3'] := by
    rw [text]
    exact @Lexed.of_read '2' ['e', '-', 'f', '(', '3'] (.number 2) 0 (by decide +kernel) (by decide +kernel) 0
  have name : Lexed 1 ['e', '-', 'f', '(', '3'] [⟨.name "e", 1⟩] 2 ['-', 'f', '(', '3'] :=
    @Lexed.of_read 'e' ['-', 'f', '(', '3'] (.name "e") 0 (by decide +kernel) (by decide +kernel) 1
  have spaces : Spaces gaps source.toList := by
    constructor
    case blank =>
      intro p
      match p with
      | 0 => exact List.all_eq_true.mp (by decide +kernel : (gaps 0).all isBlank = true)
      | 1 => exact List.all_eq_true.mp (by decide +kernel : (gaps 1).all isBlank = true)
      | 2 => exact List.all_eq_true.mp (by decide +kernel : (gaps 2).all isBlank = true)
      | 6 => exact List.all_eq_true.mp (by decide +kernel : (gaps 6).all isBlank = true)
      | 3 | 4 | 5 | _ + 7 => exact fun c hc => absurd hc List.not_mem_nil
    case between =>
      intro p some
      match p with
      | 0 => exact cut _ 0 _ .nil
      | 1 => exact cut _ 1 _ number
      | 2 => exact cut _ 2 _ (number.trans name)
      | 6 => exact last
      | 3 | 4 | 5 | _ + 7 => exact absurd rfl some
  refine ⟨by decide +kernel, fails, ?_⟩
  rw [widened gaps spaces, fails]
  rfl

end Argand
