import Argand.Decimal.Numeral

/-!
# The characters of numbers

A text that `readFloat?` reads has only digits, points, signs and the letters of its words
(`inNumeral_of_readFloat?`). So a number that stands between commas and parentheses ends where they
begin.
-/

namespace Argand

/-- A character that the text of a number can have. -/
def inNumeral (c : Char) : Bool :=
  isDigit c || c = '.' || c = '+' || c = '-' || ['i', 'n', 'f', 't', 'y', 'a', 'e'].contains c.toLower

theorem inNumeral_of_isDigit {c : Char} (h : isDigit c = true) : inNumeral c = true := by
  simp [inNumeral, h]

namespace Numeral

variable {cs : List Char}

theorem inNumeral_of_digits (h : ¬(cs.isEmpty || !cs.all isDigit) = true) :
    ∀ c ∈ cs, inNumeral c = true := by
  intro c hc
  simp only [Bool.or_eq_true, Bool.not_eq_true', not_or, Bool.not_eq_false, List.all_eq_true] at h
  exact inNumeral_of_isDigit (h.2 c hc)

theorem inNumeral_of_readPower? {p : Int} (h : readPower? cs = some p) :
    ∀ c ∈ cs, inNumeral c = true := by
  cases cs with
  | nil => simp
  | cons e cs =>
    unfold readPower? at h
    dsimp only at h
    by_cases he : e ≠ 'e' ∧ e ≠ 'E'
    · rw [if_pos he] at h
      cases h
    · rw [if_neg he] at h
      refine List.forall_mem_cons.mpr ⟨?_, ?_⟩
      · simp only [ne_eq, not_and, Decidable.not_not] at he
        by_cases lower : e = 'e'
        · rw [lower]
          rfl
        · rw [he lower]
          rfl
      -- a minus sign, a plus sign, or none
      · split at h <;> split at h <;> cases h
        · rename_i digits
          exact List.forall_mem_cons.mpr ⟨rfl, inNumeral_of_digits digits⟩
        · rename_i digits
          exact List.forall_mem_cons.mpr ⟨rfl, inNumeral_of_digits digits⟩
        · rename_i digits
          exact inNumeral_of_digits digits

theorem inNumeral_of_readDecimal? {d : Decimal} (h : readDecimal? cs = some d) :
    ∀ c ∈ cs, inNumeral c = true := by
  have digits : ∀ ds : List Char, ∀ c ∈ ds.takeWhile isDigit, inNumeral c = true := by
    intro ds c hc
    exact inNumeral_of_isDigit (List.all_eq_true.mp List.all_takeWhile c hc)
  rw [readDecimal?] at h
  intro c hc
  rw [← @List.takeWhile_append_dropWhile _ isDigit cs] at hc
  rcases List.mem_append.mp hc with hc | hc
  · exact digits cs c hc
  · split at h
    rename_i places rest hrest
    split at h
    · cases h
    · obtain ⟨p, hp, -⟩ := Option.map_eq_some_iff.mp h
      have power := inNumeral_of_readPower? hp
      split at hrest
      · rename_i after hafter
        cases hrest
        rw [hafter] at hc
        rcases List.mem_cons.mp hc with rfl | hc
        · rfl
        · rw [← @List.takeWhile_append_dropWhile _ isDigit after] at hc
          rcases List.mem_append.mp hc with hc | hc
          · exact digits after c hc
          · exact power c hc
      · cases hrest
        exact power c hc

theorem inNumeral_of_toLower {word : List Char} (h : cs.map Char.toLower = word)
    (hword : word.all (['i', 'n', 'f', 't', 'y', 'a', 'e'].contains ·) = true) :
    ∀ c ∈ cs, inNumeral c = true := by
  intro c hc
  have := List.all_eq_true.mp hword c.toLower (by rw [← h]; exact List.mem_map_of_mem hc)
  rw [inNumeral, this, Bool.or_true]

theorem inNumeral_of_readMagnitude? {x : Float} (h : readMagnitude? cs = some x) :
    ∀ c ∈ cs, inNumeral c = true := by
  have word : ∀ s : String, String.ofList (cs.map Char.toLower) = s →
      cs.map Char.toLower = s.toList := by
    intro s hs
    rw [← hs, String.toList_ofList]
  rw [readMagnitude?] at h
  split at h
  · rename_i infinite
    rcases infinite with hs | hs
    · exact inNumeral_of_toLower (word _ hs) (by decide)
    · exact inNumeral_of_toLower (word _ hs) (by decide)
  · split at h
    · rename_i hs
      exact inNumeral_of_toLower (word _ hs) (by decide)
    · obtain ⟨d, hd, -⟩ := Option.map_eq_some_iff.mp h
      exact inNumeral_of_readDecimal? hd

end Numeral

theorem inNumeral_of_readFloat? {s : String} {x : Float} (h : readFloat? s = some x) :
    ∀ c ∈ s.toList, inNumeral c = true := by
  rw [readFloat?] at h
  split at h
  · rename_i cs hs
    obtain ⟨y, hy, -⟩ := Option.map_eq_some_iff.mp h
    rw [hs]
    exact List.forall_mem_cons.mpr ⟨rfl, Numeral.inNumeral_of_readMagnitude? hy⟩
  · rename_i cs hs
    rw [hs]
    exact List.forall_mem_cons.mpr ⟨rfl, Numeral.inNumeral_of_readMagnitude? h⟩
  · exact Numeral.inNumeral_of_readMagnitude? h

end Argand
