import Argand.Palette.Named
import Argand.Proofs.Outcome
import Mathlib.Data.Nat.PSub

/-!
# Lookups that may fail

A `Scheme` has a stop by its type, so its lookups are total. Here the same lookups are done on any colors, in steps
that can fail : nothing is left over from a division by zero (`remainder?`), no number comes before zero, and a color
is read only where there is one (`Scheme.get?`, `Scheme.sampled?`, `Scheme.sample?`).

On the stops of a scheme no step fails, and the outcomes are those of the total lookups (`Scheme.get?_eq`,
`Scheme.sampled?_eq`, `Scheme.sample?_eq`). Where there are no colors, all lookups fail but those at negative positions
(`Scheme.isSome_sample?`), and `Scheme.new` makes no scheme just there (`Scheme.new_eq_error`). A scheme that is given
as texts has a stop for each of them (`Scheme.ReadFrom`), and every name of a scheme has one (`Scheme.isSome_named?`).

Nothing is asked of the arithmetic, nor of how numbers compare, nor of the index that a position is cut down to.
-/

namespace Argand

/-- What is left of a number after whole multiples of another one are taken away, unless that is zero. -/
def remainder? (a n : ℕ) : Option ℕ :=
  if n = 0 then none else some (a % n)

theorem remainder?_of_pos {n : ℕ} (h : 0 < n) (a : ℕ) : remainder? a n = some (a % n) :=
  if_neg (Nat.pos_iff_ne_zero.mp h)

namespace Scheme

/-! ## Making schemes -/

section Making

variable {K : Type}

theorem new_eq_ok {name : String} {stops : Array (Color K)} {negative axes : Color K} {s : Scheme K} :
    new name stops negative axes = .ok s ↔ ∃ h : 0 < stops.size, s = ⟨name, stops, negative, axes, h⟩ := by
  rw [new]
  split
  · rename_i h
    rw [Except.ok.injEq]
    exact ⟨fun same => ⟨h, same.symm⟩, fun ⟨_, same⟩ => same.symm⟩
  · rename_i h
    exact iff_of_false nofun fun ⟨some_stop, _⟩ => h some_stop

theorem new_eq_error {name : String} {stops : Array (Color K)} {negative axes : Color K} {e : PaletteError} :
    new name stops negative axes = .error e ↔ stops = #[] ∧ e = .empty := by
  rw [new, ← Array.size_eq_zero_iff]
  split
  · rename_i h
    exact iff_of_false nofun fun ⟨no_stop, _⟩ => Nat.ne_of_gt h no_stop
  · rename_i h
    rw [Except.error.injEq]
    exact ⟨fun same => ⟨Nat.eq_zero_of_not_pos h, same.symm⟩, fun ⟨_, same⟩ => same.symm⟩

/-- Some colors are the stops of a scheme. -/
theorem eq_empty_or_exists (stops : Array (Color K)) : stops = #[] ∨ ∃ s : Scheme K, s.stops = stops := by
  rcases Nat.eq_zero_or_pos stops.size with no_stop | some_stop
  · exact .inl (Array.size_eq_zero_iff.mp no_stop)
  · exact .inr ⟨⟨"", stops, stops[0], stops[0], some_stop⟩, rfl⟩

variable [NatCast K] [Div K]

/-- A scheme of colors that are read from texts. There is at least one stop, and the other two colors are black and
white where no text gives them. -/
structure ReadFrom (s : Scheme K) (name : String) (texts : List String) (negative axes : Option String) : Prop where
  some_text : texts ≠ []
  name : s.name = name
  stops : List.Forall₂ (fun text c => Color.parse text = .ok c) texts s.stops.toList
  negative : negative.elim (.ok (Color.ofNat 0x000000)) Color.parse = .ok s.negative
  axes : axes.elim (.ok (Color.ofNat 0xFFFFFF)) Color.parse = .ok s.axes

theorem ofTexts_eq_ok {name : String} {texts : List String} {negative axes : Option String} {s : Scheme K} :
    ofTexts name texts negative axes = .ok s ↔ s.ReadFrom name texts negative axes := by
  simp only [ofTexts, bind_eq_ok, mapM_eq_ok, new_eq_ok]
  constructor
  · rintro ⟨stops, hstops, _, hnegative, _, haxes, some_stop, rfl⟩
    refine ⟨?_, rfl, hstops, hnegative, haxes⟩
    rintro rfl
    cases hstops
    exact absurd some_stop (Nat.lt_irrefl 0)
  · rintro ⟨-, rfl, hstops, hnegative, haxes⟩
    exact ⟨_, hstops, _, hnegative, _, haxes, s.stops_pos, rfl⟩

/-- The schemes that are found by name are those with a name, whatever the case of its letters. -/
theorem isSome_named? [OfScientific K] (name : String) :
    (named? name : Option (Scheme K)).isSome = names.any (sameName · name) := by
  have same : names = (all (K := K)).map (·.name) := rfl
  rw [named?, List.isSome_find?, same, List.any_map]
  rfl

end Making

/-! ## Lookups in any colors -/

variable {R K : Type} [Add K] [Sub K] [Mul K] [One K] [Sub R] [NatCast R] [Rounding R] [Narrowing R K]

/-- The blend of the two neighbours of `w` among some colors. -/
def blendAt? (stops : Array (Color K)) (w : R) : Option (Color K) := do
  let i ← remainder? (Rounding.toNat (Rounding.floor w)) stops.size
  let a ← stops[i]?
  let j ← remainder? (i + 1) stops.size
  let b ← stops[j]?
  some (a.blend b (Narrowing.narrow (w - (i : R))))

theorem blendAt?_eq (s : Scheme K) (w : R) : blendAt? s.stops w = some (s.blendAt w) := by
  have inside (a : ℕ) : a % s.stops.size < s.stops.size := Nat.mod_lt a s.stops_pos
  simp only [blendAt?, remainder?_of_pos s.stops_pos, Array.getElem?_eq_getElem (inside _), Option.bind_eq_bind,
    Option.bind_some, blendAt]

variable [LT R] [DecidableLT R] [Zero R] [Add R] [Mul R]

/-- The color at a position. -/
def get? (stops : Array (Color K)) (v : R) : Option (Color K) :=
  blendAt? stops (wrap (v * (stops.size : R)) (stops.size : R))

/-- The colors at even distances over one round, from its start to its end. -/
def sampled? (R : Type) [Sub R] [NatCast R] [Rounding R] [Narrowing R K] [LT R] [DecidableLT R] [Zero R] [Add R]
    [Mul R] [Div R] (stops : Array (Color K)) : Option (List (Color K)) :=
  let k := min stops.size mostIntervals
  (List.range (k + 1)).mapM fun i : ℕ => get? stops ((i : R) / (k : R))

/-- The color at a position by the colors at even distances. -/
def sample? [Div R] [Finiteness R] (stops : Array (Color K)) (negative : Color K) (v : R) : Option (Color K) :=
  if v < 0 || Finiteness.isNaN v then some negative
  else do
    let table ← sampled? R stops
    let k := min stops.size mostIntervals
    let w := (v - Rounding.floor v) * (k : R)
    let last ← k.ppred
    let i := min (Rounding.toNat (Rounding.floor w)) last
    let a ← table[i]?
    let b ← table[i + 1]?
    some (a.blend b (Narrowing.narrow (w - (i : R))))

/-! ## Where lookups succeed -/

theorem get?_eq (s : Scheme K) (v : R) : get? s.stops v = some (s.get v) :=
  blendAt?_eq s _

theorem isSome_get? {stops : Array (Color K)} {v : R} : (get? stops v).isSome ↔ 0 < stops.size := by
  rcases eq_empty_or_exists stops with rfl | ⟨s, rfl⟩
  · exact iff_of_false Bool.false_ne_true (Nat.lt_irrefl 0)
  · rw [get?_eq]
    exact iff_of_true rfl s.stops_pos

variable [Div R]

theorem sampled?_eq (s : Scheme K) : sampled? R s.stops = some (s.sampled R).toList := by
  have entries : (fun i : ℕ => get? s.stops ((i : R) / ((min s.stops.size mostIntervals : ℕ) : R))) =
      fun i : ℕ => pure (s.get ((i : R) / (s.intervals : R))) :=
    funext fun i => get?_eq s _
  have colors : (List.range (s.intervals + 1)).map (fun i : ℕ => s.get ((i : R) / (s.intervals : R))) =
      (s.sampled R).toList := by
    apply List.ext_getElem <;> simp [sampled]
  rw [sampled?, entries, List.mapM_pure]
  exact congrArg some colors

theorem isSome_sampled? {stops : Array (Color K)} : (sampled? R stops).isSome ↔ 0 < stops.size := by
  rcases eq_empty_or_exists stops with rfl | ⟨s, rfl⟩
  · exact iff_of_false Bool.false_ne_true (Nat.lt_irrefl 0)
  · rw [sampled?_eq]
    exact iff_of_true rfl s.stops_pos

theorem sample?_eq [Finiteness R] (s : Scheme K) (v : R) : sample? s.stops s.negative v = some (s.sample v) := by
  have intervals : min s.stops.size mostIntervals = s.intervals := rfl
  have last : s.intervals.ppred = some (s.intervals - 1) :=
    Nat.ppred_eq_some.mpr (Nat.succ_pred_eq_of_pos s.intervals_pos)
  have entry {i : ℕ} (h : i < s.intervals + 1) : (s.sampled R).toList[i]? = some (s.sampled R)[i] := by
    rw [Vector.getElem?_toList, Vector.getElem?_eq_getElem h]
  rw [sample?, sample, sampleIn]
  split
  · rfl
  · -- the last interval, too, has an entry at its end
    have inside : min (Rounding.toNat (Rounding.floor ((v - Rounding.floor v) * (s.intervals : R))))
        (s.intervals - 1) + 1 < s.intervals + 1 := by
      have := s.intervals_pos
      omega
    rw [sampled?_eq]
    dsimp only [Option.bind_eq_bind, Option.bind_some]
    rw [intervals, last, Option.bind_some, entry (Nat.lt_of_succ_lt inside), Option.bind_some, entry inside,
      Option.bind_some]

/-- The color of negative positions is not looked up. -/
theorem isSome_sample? [Finiteness R] {stops : Array (Color K)} {negative : Color K} {v : R} :
    (sample? stops negative v).isSome ↔ (v < 0 || Finiteness.isNaN v) = true ∨ 0 < stops.size := by
  rcases eq_empty_or_exists stops with rfl | ⟨s, rfl⟩
  · rw [sample?]
    split
    · rename_i h
      exact iff_of_true rfl (.inl h)
    · rename_i h
      exact iff_of_false Bool.false_ne_true fun looked => looked.elim h (Nat.lt_irrefl 0)
  · have total : sample? s.stops negative v = some ({ s with negative }.sample v) := sample?_eq { s with negative } v
    rw [total]
    exact iff_of_true rfl (.inr s.stops_pos)

/-- Whatever the position, and whatever index it is cut down to, no lookup in a scheme fails, and its table has an
entry at each end of every one of its intervals, which are from 1 to 17. Among any colors, lookups succeed if there are
some, and only then are the colors, or the texts of colors, taken for a scheme. -/
theorem lookups_inside [Finiteness R] [NatCast K] [Div K] [OfScientific K] :
    (∀ s : Scheme K, 1 ≤ s.intervals ∧ s.intervals ≤ 17 ∧
      (∃ table, sampled? R s.stops = some table ∧ table.length = s.intervals + 1 ∧ table = (s.sampled R).toList) ∧
      ∀ v : R, get? s.stops v = some (s.get v) ∧ sample? s.stops s.negative v = some (s.sample v)) ∧
    (∀ (stops : Array (Color K)) negative (v : R), ((get? stops v).isSome ↔ 0 < stops.size) ∧
      ((sampled? R stops).isSome ↔ 0 < stops.size) ∧
      ((sample? stops negative v).isSome ↔ (v < 0 || Finiteness.isNaN v) = true ∨ 0 < stops.size)) ∧
    (∀ name (stops : Array (Color K)) negative axes,
      (∀ s, new name stops negative axes = .ok s ↔ ∃ h : 0 < stops.size, s = ⟨name, stops, negative, axes, h⟩) ∧
      ∀ e, new name stops negative axes = .error e ↔ stops = #[] ∧ e = .empty) ∧
    (∀ name texts negative axes (s : Scheme K),
      ofTexts name texts negative axes = .ok s ↔ s.ReadFrom name texts negative axes) ∧
    ∀ name, (named? name : Option (Scheme K)).isSome = names.any (sameName · name) := by
  refine ⟨fun s => ?_, fun stops negative v => ⟨isSome_get?, isSome_sampled?, isSome_sample?⟩,
    fun name stops negative axes => ⟨fun s => new_eq_ok, fun e => new_eq_error⟩,
    fun name texts negative axes s => ofTexts_eq_ok, isSome_named?⟩
  refine ⟨s.intervals_pos, Nat.min_le_right .., ?_, fun v => ⟨get?_eq s v, sample?_eq s v⟩⟩
  exact ⟨_, sampled?_eq s, Vector.length_toList, rfl⟩

end Scheme

end Argand
