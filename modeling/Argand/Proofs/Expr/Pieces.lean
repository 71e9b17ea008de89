import Argand.Proofs.Decimal.Layout
import Argand.Proofs.Expr.Scanning

/-!
# Cutting a text

The rules by which a text is cut into lexemes, beside `scan`, which carries them out :

* `IsNumeral` : digits and points, as many as there are, with a power of ten where one can be read;
* `IsPiece` : a sign, a name that goes on for as long as it can, or a number with a finite value;
* `Flaw` : what no piece begins with, and is no blank;
* `Lexed` : blanks and pieces, up to some place of the text.

A text is cut to its end, or up to a flaw (`exists_lexed`). Since a character begins a piece in one way at
most, `scan` succeeds exactly in the first case (`scan_eq_ok_iff`) and fails exactly in the second, at the
place of the flaw (`scan_eq_error_iff`).
-/

namespace Argand

/-! ## Pieces -/

/-- A power of ten : a letter `e`, perhaps a sign, and a digit at least. -/
inductive IsPower : List Char → Prop
  | intro {letter : Char} {sign digits : List Char} (small : letter = 'e' ∨ letter = 'E')
      (signed : sign = [] ∨ sign = ['+'] ∨ sign = ['-']) (nonempty : digits ≠ [])
      (digit : ∀ c ∈ digits, isDigit c = true) : IsPower (letter :: (sign ++ digits))

/-- `IsNumeral cs rest` : in front of `rest`, the text `cs` is as many digits and points as there are,
and a power of ten with as many digits as there are, if there is a power of ten. -/
inductive IsNumeral : List Char → List Char → Prop
  | plain {front rest : List Char} (nonempty : front ≠ []) (inside : ∀ c ∈ front, inNumber c = true)
      (ends : Ends inNumber rest) (unscaled : ∀ power after, rest = power ++ after → ¬IsPower power) :
      IsNumeral front rest
  | scaled {front power rest : List Char} (nonempty : front ≠ [])
      (inside : ∀ c ∈ front, inNumber c = true) (scale : IsPower power) (ends : Ends isDigit rest) :
      IsNumeral (front ++ power) rest

/-- `IsPiece cs rest t` : in front of `rest`, the text `cs` is the token `t`. -/
inductive IsPiece : List Char → List Char → Token → Prop
  | sign {c : Char} {rest : List Char} {t : Token} (sign : t.sign? = some c) : IsPiece [c] rest t
  | name {cs rest : List Char} (identifier : IsIdentifier cs) (ends : Ends continuesName rest) :
      IsPiece cs rest (.name (String.ofList cs))
  | number {cs rest : List Char} {x : Float} (numeral : IsNumeral cs rest)
      (value : readFloat? (String.ofList cs) = some x) (finite : x.isFinite = true) :
      IsPiece cs rest (.number x)

/-- `Flaw cs cause` : a text begins with what is no token, a character outside the alphabet or a number
that has no value or no finite one. -/
inductive Flaw : List Char → SyntaxCause → Prop
  | character {c : Char} {cs : List Char} (visible : isBlank c = false) (number : inNumber c = false)
      (name : startsName c = false) (sign : ∀ t : Token, t.sign? ≠ some c) :
      Flaw (c :: cs) (.unexpectedCharacter c)
  | malformed {cs rest : List Char} (numeral : IsNumeral cs rest)
      (value : readFloat? (String.ofList cs) = none) : Flaw (cs ++ rest) .malformedNumber
  | outOfRange {cs rest : List Char} {x : Float} (numeral : IsNumeral cs rest)
      (value : readFloat? (String.ofList cs) = some x) (infinite : x.isFinite = false) :
      Flaw (cs ++ rest) .numberOutOfRange

/-- `Lexed p cs ls q rest` : the text `cs`, which begins at the place `p`, is cut into blanks and the
lexemes `ls` up to the place `q`, where `rest` begins. -/
inductive Lexed : Nat → List Char → List Lexeme → Nat → List Char → Prop
  | nil {p : Nat} {rest : List Char} : Lexed p rest [] p rest
  | blank {p q : Nat} {c : Char} {cs rest : List Char} {ls : List Lexeme} (blank : isBlank c = true)
      (others : Lexed (p + c.utf8Size) cs ls q rest) : Lexed p (c :: cs) ls q rest
  | piece {p q : Nat} {t : Token} {piece cs rest : List Char} {ls : List Lexeme} (first : IsPiece piece cs t)
      (others : Lexed (p + utf8Length piece) cs ls q rest) : Lexed p (piece ++ cs) (⟨t, p⟩ :: ls) q rest

/-! ## Numbers -/

theorem IsPower.ends {cs : List Char} (h : IsPower cs) (rest : List Char) : Ends inNumber (cs ++ rest) := by
  obtain ⟨small, -, -, -⟩ := h
  rcases small with rfl | rfl
  · exact (by decide : inNumber 'e' = false)
  · exact (by decide : inNumber 'E' = false)

/-- A sign of a power of ten. -/
def isSign (c : Char) : Bool :=
  c = '+' || c = '-'

theorem powerLength_cons {letter : Char} {sign body : List Char} (small : letter = 'e' ∨ letter = 'E')
    (signed : sign = [] ∧ Ends isSign body ∨ sign = ['+'] ∨ sign = ['-']) :
    powerLength (letter :: (sign ++ body)) =
      if (body.takeWhile isDigit).length = 0 then 0
      else 1 + sign.length + (body.takeWhile isDigit).length := by
  have begins : ¬(letter ≠ 'e' ∧ letter ≠ 'E') := by
    rcases small with rfl | rfl <;> decide
  show (if letter ≠ 'e' ∧ letter ≠ 'E' then 0 else _) = _
  rw [if_neg begins]
  rcases signed with ⟨rfl, ends⟩ | rfl | rfl
  · cases body with
    | nil => rfl
    | cons c body =>
      have unsigned : ¬(c = '+' ∨ c = '-') := by
        have : isSign c = false := ends
        simpa [isSign] using this
      simp only [List.nil_append, if_neg unsigned, List.drop_zero, List.length_nil]
  · rfl
  · rfl

theorem exists_sign (cs : List Char) : ∃ sign body, cs = sign ++ body ∧
    (sign = [] ∧ Ends isSign body ∨ sign = ['+'] ∨ sign = ['-']) := by
  cases cs with
  | nil => exact ⟨[], [], rfl, .inl ⟨rfl, trivial⟩⟩
  | cons c cs =>
    by_cases plus : c = '+'
    · exact ⟨['+'], cs, by rw [plus]; rfl, .inr (.inl rfl)⟩
    · by_cases minus : c = '-'
      · exact ⟨['-'], cs, by rw [minus]; rfl, .inr (.inr rfl)⟩
      · refine ⟨[], c :: cs, rfl, .inl ⟨rfl, ?_⟩⟩
        exact (by simp [isSign, plus, minus] : isSign c = false)

/-- A power of ten is read with all digits that follow. -/
theorem powerLength_append {power : List Char} (h : IsPower power) (rest : List Char) :
    powerLength (power ++ rest) = power.length + (rest.takeWhile isDigit).length := by
  obtain @⟨letter, sign, digits, small, signed, nonempty, digit⟩ := h
  have run : (digits ++ rest).takeWhile isDigit = digits ++ rest.takeWhile isDigit :=
    List.takeWhile_append_of_pos digit
  have signed' : sign = [] ∧ Ends isSign (digits ++ rest) ∨ sign = ['+'] ∨ sign = ['-'] := by
    refine signed.imp (fun none => ⟨none, ?_⟩) id
    obtain ⟨d, ds, rfl⟩ := List.exists_cons_of_ne_nil nonempty
    have first := digit d List.mem_cons_self
    refine Bool.eq_false_iff.mpr fun signs => ?_
    rcases Bool.or_eq_true_iff.mp signs with plus | minus
    · rw [of_decide_eq_true plus] at first
      exact absurd first (by decide)
    · rw [of_decide_eq_true minus] at first
      exact absurd first (by decide)
  have long : 0 < digits.length := List.length_pos_iff.mpr nonempty
  rw [List.cons_append, List.append_assoc, powerLength_cons small signed', run, List.length_append,
    if_neg (by omega), List.length_cons, List.length_append]
  omega

/-- What is read as a power of ten is one, with all digits there are. -/
theorem exists_isPower {cs : List Char} (h : powerLength cs ≠ 0) : ∃ power after, cs = power ++ after ∧
    IsPower power ∧ Ends isDigit after := by
  cases cs with
  | nil => exact absurd rfl h
  | cons letter cs =>
    have small : letter = 'e' ∨ letter = 'E' := by
      refine Decidable.byContradiction fun other => h ?_
      show (if letter ≠ 'e' ∧ letter ≠ 'E' then 0 else _) = 0
      exact if_pos (not_or.mp other)
    obtain ⟨sign, body, rfl, signed⟩ := exists_sign cs
    rw [powerLength_cons small signed] at h
    have nonempty : body.takeWhile isDigit ≠ [] := by
      intro none
      rw [none] at h
      exact h rfl
    refine ⟨letter :: (sign ++ body.takeWhile isDigit), body.dropWhile isDigit, ?_, ?_, ?_⟩
    · rw [List.cons_append, List.append_assoc, List.takeWhile_append_dropWhile]
    · exact .intro small (signed.imp And.left id) nonempty (List.all_eq_true.mp List.all_takeWhile)
    · exact ends_dropWhile body

theorem IsNumeral.numberLength_eq {cs rest : List Char} (h : IsNumeral cs rest) :
    numberLength (cs ++ rest) = cs.length := by
  cases h with
  | plain _ inside ends unscaled =>
    have none : powerLength rest = 0 := by
      refine Decidable.byContradiction fun some => ?_
      obtain ⟨power, after, split, scale, -⟩ := exists_isPower some
      exact unscaled power after split scale
    rw [numberLength, takeWhile_of_ends inside ends, List.drop_left, none, Nat.add_zero]
  | @scaled front power _ _ inside scale ends =>
    have run : rest.takeWhile isDigit = [] :=
      @takeWhile_of_ends isDigit [] rest (fun _ h => absurd h List.not_mem_nil) ends
    rw [List.append_assoc, numberLength, takeWhile_of_ends inside (scale.ends rest), List.drop_left,
      powerLength_append scale, run, List.length_append, List.length_nil, Nat.add_zero]

/-- A text that begins with a digit or a point begins with a number. -/
theorem exists_isNumeral {c : Char} (first : inNumber c = true) (cs : List Char) :
    ∃ more rest, cs = more ++ rest ∧ IsNumeral (c :: more) rest := by
  have inside : ∀ d ∈ c :: cs.takeWhile inNumber, inNumber d = true :=
    List.forall_mem_cons.mpr ⟨first, List.all_eq_true.mp List.all_takeWhile⟩
  by_cases none : powerLength (cs.dropWhile inNumber) = 0
  · refine ⟨cs.takeWhile inNumber, cs.dropWhile inNumber, List.takeWhile_append_dropWhile.symm, ?_⟩
    refine .plain (List.cons_ne_nil _ _) inside (ends_dropWhile cs) fun power after split scale => ?_
    have long := powerLength_append scale after
    obtain ⟨-, -, -, -⟩ := scale
    rw [← split, none, List.length_cons] at long
    omega
  · obtain ⟨power, after, split, scale, ends⟩ := exists_isPower none
    refine ⟨cs.takeWhile inNumber ++ power, after, ?_, ?_⟩
    · rw [List.append_assoc, ← split, List.takeWhile_append_dropWhile]
    · exact @IsNumeral.scaled (c :: cs.takeWhile inNumber) power after (List.cons_ne_nil _ _) inside scale ends

theorem IsNumeral.inNumber {c : Char} {more rest : List Char} (h : IsNumeral (c :: more) rest) :
    inNumber c = true := by
  generalize hcs : c :: more = cs at h
  cases h with
  | plain _ inside _ _ => exact inside c (hcs ▸ List.mem_cons_self)
  | @scaled front _ _ nonempty inside _ _ =>
    obtain ⟨d, front, rfl⟩ := List.exists_cons_of_ne_nil nonempty
    obtain ⟨rfl, -⟩ := List.cons.inj hcs
    exact inside c List.mem_cons_self

/-! ## Reading a piece -/

theorem Token.read_number {c : Char} {more rest : List Char} (h : IsNumeral (c :: more) rest) :
    Token.read c (more ++ rest) = (numberToken (c :: more)).map (·, more.length) := by
  have length := h.numberLength_eq
  rw [List.cons_append, List.length_cons] at length
  unfold Token.read
  rw [if_pos h.inNumber, length]
  dsimp only
  rw [← List.cons_append, List.take_left' (List.length_cons ..), Nat.add_sub_cancel]

theorem Token.read_sign {c : Char} {t : Token} (h : t.sign? = some c) (rest : List Char) :
    isBlank c = false ∧ Token.read c rest = .ok (t, 0) := by
  cases t <;> cases h <;> exact ⟨by decide +kernel, rfl⟩

theorem numberToken_of_finite {cs : List Char} {x : Float} (value : readFloat? (String.ofList cs) = some x)
    (finite : x.isFinite = true) : numberToken cs = .ok (.number x) := by
  rw [numberToken, value]
  exact if_pos finite

theorem numberToken_of_infinite {cs : List Char} {x : Float} (value : readFloat? (String.ofList cs) = some x)
    (infinite : x.isFinite = false) : numberToken cs = .error .numberOutOfRange := by
  rw [numberToken, value]
  exact if_neg (by rw [infinite]; decide)

theorem numberToken_of_none {cs : List Char} (value : readFloat? (String.ofList cs) = none) :
    numberToken cs = .error .malformedNumber := by
  rw [numberToken, value]

theorem IsPiece.read {c : Char} {more rest : List Char} {t : Token} (h : IsPiece (c :: more) rest t) :
    isBlank c = false ∧ Token.read c (more ++ rest) = .ok (t, more.length) := by
  generalize hcs : c :: more = cs at h
  cases h with
  | sign sign =>
    obtain ⟨rfl, rfl⟩ := List.cons.inj hcs
    exact Token.read_sign sign rest
  | name identifier ends =>
    obtain ⟨d, ds, rfl, starts, continues⟩ := identifier
    obtain ⟨rfl, rfl⟩ := List.cons.inj hcs
    obtain ⟨visible, apart⟩ := startsName_apart starts
    exact ⟨visible, Token.read_name apart starts continues ends⟩
  | number numeral value finite =>
    subst hcs
    refine ⟨inNumber_visible numeral.inNumber, ?_⟩
    rw [Token.read_number numeral, numberToken_of_finite value finite]
    rfl

theorem IsNumeral.exists_cons {cs rest : List Char} (h : IsNumeral cs rest) : ∃ c more, cs = c :: more := by
  cases h with
  | plain nonempty _ _ _ => exact List.exists_cons_of_ne_nil nonempty
  | scaled nonempty _ _ _ =>
    obtain ⟨c, front, rfl⟩ := List.exists_cons_of_ne_nil nonempty
    exact ⟨c, _, rfl⟩

theorem IsPiece.exists_cons {cs rest : List Char} {t : Token} (h : IsPiece cs rest t) :
    ∃ c more, cs = c :: more := by
  cases h with
  | sign _ => exact ⟨_, _, rfl⟩
  | name identifier _ =>
    obtain ⟨c, more, rfl, -, -⟩ := identifier
    exact ⟨c, more, rfl⟩
  | number numeral _ _ => exact numeral.exists_cons

theorem Flaw.exists_cons {cs : List Char} {cause : SyntaxCause} (h : Flaw cs cause) :
    ∃ c more, cs = c :: more := by
  cases h with
  | character _ _ _ _ => exact ⟨_, _, rfl⟩
  | malformed numeral _ | outOfRange numeral _ _ =>
    obtain ⟨c, more, rfl⟩ := numeral.exists_cons
    exact ⟨c, _, rfl⟩

theorem Flaw.read {c : Char} {cs : List Char} {cause : SyntaxCause} (h : Flaw (c :: cs) cause) :
    isBlank c = false ∧ Token.read c cs = .error cause := by
  generalize htext : c :: cs = text at h
  cases h with
  | character visible number name sign =>
    obtain ⟨rfl, rfl⟩ := List.cons.inj htext
    refine ⟨visible, ?_⟩
    unfold Token.read
    rw [if_neg (by rw [number]; decide), if_neg (by rw [name]; decide)]
    split
    · exact absurd rfl (sign .plus)
    · exact absurd rfl (sign .minus)
    · exact absurd rfl (sign .times)
    · exact absurd rfl (sign .divide)
    · exact absurd rfl (sign .power)
    · exact absurd rfl (sign .opening)
    · exact absurd rfl (sign .closing)
    · exact absurd rfl (sign .comma)
    · rfl
  | malformed numeral value =>
    obtain ⟨d, more, rfl⟩ := numeral.exists_cons
    obtain ⟨rfl, rfl⟩ := List.cons.inj htext
    refine ⟨inNumber_visible numeral.inNumber, ?_⟩
    rw [List.append_eq, Token.read_number numeral, numberToken_of_none value]
    rfl
  | outOfRange numeral value infinite =>
    obtain ⟨d, more, rfl⟩ := numeral.exists_cons
    obtain ⟨rfl, rfl⟩ := List.cons.inj htext
    refine ⟨inNumber_visible numeral.inNumber, ?_⟩
    rw [List.append_eq, Token.read_number numeral, numberToken_of_infinite value infinite]
    rfl

/-- What is read at a character that is no blank is a piece, or there is a flaw. -/
theorem Token.read_cases {c : Char} (cs : List Char) (visible : isBlank c = false) :
    (∃ t more rest, cs = more ++ rest ∧ IsPiece (c :: more) rest t) ∨ ∃ cause, Flaw (c :: cs) cause := by
  by_cases number : inNumber c = true
  · obtain ⟨more, rest, rfl, numeral⟩ := exists_isNumeral number cs
    cases value : readFloat? (String.ofList (c :: more)) with
    | none => exact .inr ⟨_, .malformed numeral value⟩
    | some x =>
      cases finite : x.isFinite with
      | false => exact .inr ⟨_, .outOfRange numeral value finite⟩
      | true => exact .inl ⟨_, more, rest, rfl, .number numeral value finite⟩
  · by_cases name : startsName c = true
    · refine .inl ⟨_, _, _, List.takeWhile_append_dropWhile.symm, .name ?_ (ends_dropWhile cs)⟩
      exact ⟨c, _, rfl, name, List.all_eq_true.mp List.all_takeWhile⟩
    · by_cases sign : ∃ t : Token, t.sign? = some c
      · obtain ⟨t, ht⟩ := sign
        exact .inl ⟨t, [], cs, rfl, .sign ht⟩
      · refine .inr ⟨_, .character visible (Bool.eq_false_iff.mpr number) (Bool.eq_false_iff.mpr name) ?_⟩
        exact fun t ht => sign ⟨t, ht⟩

/-! ## Cutting a text -/

theorem utf8Length_append (cs ds : List Char) : utf8Length (cs ++ ds) = utf8Length cs + utf8Length ds := by
  have shift : ∀ (ds : List Char) (n : Nat),
      ds.foldl (fun n c => n + c.utf8Size) n = n + ds.foldl (fun n c => n + c.utf8Size) 0 := by
    intro ds
    induction ds with
    | nil => exact fun _ => rfl
    | cons d ds ih =>
      intro n
      rw [List.foldl_cons, List.foldl_cons, ih, ih (0 + d.utf8Size)]
      omega
  rw [utf8Length, List.foldl_append, shift]
  rfl

theorem utf8Length_cons (c : Char) (cs : List Char) : utf8Length (c :: cs) = c.utf8Size + utf8Length cs := by
  rw [← List.singleton_append, utf8Length_append]
  exact congrArg (· + utf8Length cs) (Nat.zero_add _)

theorem scan_cons_of_isPiece {p : Nat} {t : Token} {piece cs : List Char} (h : IsPiece piece cs t) :
    scan p (piece ++ cs) = (scan (p + utf8Length piece) cs).map (⟨t, p⟩ :: ·) := by
  obtain ⟨c, more, rfl⟩ := h.exists_cons
  obtain ⟨visible, hread⟩ := h.read
  rw [List.cons_append, scan, if_neg (by rw [visible]; decide), hread]
  dsimp only
  rw [List.take_left, List.drop_left]

theorem scan_of_flaw {p : Nat} {cs : List Char} {cause : SyntaxCause} (h : Flaw cs cause) :
    scan p cs = .error ⟨p, cause⟩ := by
  obtain ⟨c, more, rfl⟩ := h.exists_cons
  obtain ⟨visible, hread⟩ := h.read
  rw [scan, if_neg (by rw [visible]; decide), hread]

/-- What a text is cut into is what is scanned, before what is scanned of the rest. -/
theorem Lexed.scan_eq {p q : Nat} {cs rest : List Char} {ls : List Lexeme} (h : Lexed p cs ls q rest) :
    scan p cs = (scan q rest).map (ls ++ ·) := by
  induction h with
  | nil => cases scan _ _ <;> rfl
  | blank blank _ ih => rw [scan, if_pos blank, ih]
  | piece first _ ih =>
    rw [scan_cons_of_isPiece first, ih]
    cases scan _ _ <;> rfl

/-- A text is cut into lexemes to its end or up to a flaw. -/
theorem exists_lexed (p : Nat) (cs : List Char) : (∃ ls, Lexed p cs ls (p + utf8Length cs) []) ∨
    ∃ ls q rest cause, Lexed p cs ls q rest ∧ Flaw rest cause := by
  induction h : cs.length using Nat.strongRecOn generalizing p cs with
  | _ length ih =>
    cases cs with
    | nil => exact .inl ⟨[], .nil⟩
    | cons c cs =>
      rw [List.length_cons] at h
      by_cases blank : isBlank c = true
      · rw [utf8Length_cons, ← Nat.add_assoc]
        refine (ih cs.length (by omega) (p + c.utf8Size) cs rfl).imp ?_ ?_
        · exact fun ⟨ls, others⟩ => ⟨ls, .blank blank others⟩
        · exact fun ⟨ls, q, rest, cause, others, flaw⟩ => ⟨ls, q, rest, cause, .blank blank others, flaw⟩
      · rcases Token.read_cases cs (Bool.eq_false_iff.mpr blank) with ⟨t, more, rest, rfl, piece⟩ | ⟨cause, flaw⟩
        · rw [List.length_append] at h
          rw [← List.cons_append, utf8Length_append, ← Nat.add_assoc]
          refine (ih rest.length (by omega) (p + utf8Length (c :: more)) rest rfl).imp ?_ ?_
          · exact fun ⟨ls, others⟩ => ⟨_, .piece piece others⟩
          · exact fun ⟨ls, q, rest, cause, others, flaw⟩ => ⟨_, q, rest, cause, .piece piece others, flaw⟩
        · exact .inr ⟨[], p, c :: cs, cause, .nil, flaw⟩

theorem scan_eq_ok_iff {p : Nat} {cs : List Char} {ls : List Lexeme} :
    scan p cs = .ok ls ↔ Lexed p cs ls (p + utf8Length cs) [] := by
  constructor
  · intro h
    rcases exists_lexed p cs with ⟨ls', lexed⟩ | ⟨ls', q, rest, cause, lexed, flaw⟩
    · rw [lexed.scan_eq, scan] at h
      cases h
      dsimp only
      rwa [List.append_nil]
    · rw [lexed.scan_eq, scan_of_flaw flaw] at h
      cases h
  · intro h
    rw [h.scan_eq, scan]
    exact congrArg Except.ok (List.append_nil ls)

theorem scan_eq_error_iff {p : Nat} {cs : List Char} {err : SyntaxError} :
    scan p cs = .error err ↔ ∃ ls rest, Lexed p cs ls err.position rest ∧ Flaw rest err.cause := by
  constructor
  · intro h
    rcases exists_lexed p cs with ⟨ls, lexed⟩ | ⟨ls, q, rest, cause, lexed, flaw⟩
    · rw [lexed.scan_eq, scan] at h
      cases h
    · rw [lexed.scan_eq, scan_of_flaw flaw] at h
      cases h
      exact ⟨ls, rest, lexed, flaw⟩
  · rintro ⟨ls, rest, lexed, flaw⟩
    rw [lexed.scan_eq, scan_of_flaw flaw]
    rfl

end Argand
