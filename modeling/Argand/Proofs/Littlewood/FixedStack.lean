import Argand.Littlewood.RootFree

/-!
# The search on a stack of a fixed size

`search` keeps the sums that wait in a list. A `FixedStack` keeps them in a table of `mostWaiting` slots, with the
index of the one on top, and never clears a slot. A round of the search reads the sum on top, lowers the index, and
writes at most two sums above it; only then it looks whether the stack is empty or full. A slot outside the table can
neither be read nor written : there is no outcome then (`FixedStack.slot?`).

What is in the table up to the index is the list, the other way round (`FixedStack.Holds`). A round begins with at
least one sum and with less than `mostWaiting` of them, so it never leaves the table, and does what a step of the
search does (`FixedStack.Holds.round`). That goes on until the search ends (`FixedStack.Holds.run`), and the verdict
is the same (`verdictOn?_eq`).

Nothing is asked of the arithmetic, nor of how numbers compare.
-/

namespace Argand.Littlewood

/-- The sums that wait, in a table. What is above the head has been left there. -/
structure FixedStack (A R : Type) where
  slots : Vector (PartialSum A R) mostWaiting
  /-- The index of the sum on top, or minus one if no sum waits. -/
  head : Int

namespace FixedStack

variable {A R : Type}

/-- The slot of an index, if it is in the table. -/
def slot? (i : Int) : Option (Fin mostWaiting) :=
  if h : 0 ≤ i ∧ i < mostWaiting then some ⟨i.toNat, by omega⟩ else none

/-- Reads the sum on top. -/
def read? (s : FixedStack A R) : Option (PartialSum A R) :=
  (slot? s.head).map s.slots.get

/-- Takes the sum on top away. -/
def pop (s : FixedStack A R) : FixedStack A R :=
  { s with head := s.head - 1 }

/-- Writes a sum above the one on top. -/
def write? (s : FixedStack A R) (t : PartialSum A R) : Option (FixedStack A R) :=
  (slot? (s.head + 1)).map fun i => ⟨s.slots.set i.val t i.isLt, s.head + 1⟩

/-- A table for a search that begins with a sum. -/
def start (first : PartialSum A R) : FixedStack A R :=
  ⟨Vector.replicate mostWaiting first, 0⟩

/-- What a search has shown that ends with a table. -/
def verdict (s : FixedStack A R) : Verdict :=
  if s.head < 0 then .excluded else .possible

variable [Add A] [Sub A] [Mul A] [Modulus A R] [LT R] [DecidableLT R] [Sub R] [OfScientific R]

/-- Writes a sum if it may still come back to zero. -/
def push? (s : FixedStack A R) (t : PartialSum A R) : Option (FixedStack A R) :=
  if Modulus.modulus t.value < t.reach then s.write? t else some s

/-- A round of the search, and whether another one follows. -/
def round? (z : A) (s : FixedStack A R) : Option (FixedStack A R × Bool) := do
  let top ← s.read?
  let power := top.power * z
  let reach := top.reach - Modulus.modulus power
  let plus := top.value + power
  let minus := top.value - power
  if Modulus.modulus plus < nearZero R || Modulus.modulus minus < nearZero R then some (s, false)
  else
    let s ← s.pop.push? ⟨plus, reach, power⟩
    let s ← s.push? ⟨minus, reach, power⟩
    some (s, !(20 ≤ s.head || s.head < 0))

/-- At most some rounds of the search. -/
def run? (z : A) : Nat → FixedStack A R → Option (FixedStack A R)
  | 0, s => some s
  | n + 1, s => do
    let (s, more) ← s.round? z
    if more then run? z n s else some s

end FixedStack

section Verdicts

variable {A R : Type} [One A] [Add A] [Sub A] [Mul A] [Inv A] [Modulus A R] [LT R] [DecidableLT R]
  [One R] [Sub R] [Div R] [OfScientific R]

/-- What a search on a table can show about a point in the unit disk at a distance `r` from zero. -/
def verdictInsideOn? (z : A) (r : R) : Option Verdict :=
  if searchRadius R < r then some .possible
  else (FixedStack.run? z searchSteps (.start ⟨1, r / (1 - r), 1⟩)).map (·.verdict)

/-- What a search on a table can show about a point. -/
def verdictOn? (z : A) : Option Verdict :=
  let r : R := Modulus.modulus z
  if 1 < r then verdictInsideOn? z⁻¹ (1 / r) else verdictInsideOn? z r

end Verdicts

/-! ## The table and the list -/

namespace FixedStack

variable {A R : Type} {s : FixedStack A R} {t : PartialSum A R} {waiting rest : List (PartialSum A R)}

theorem isSome_slot? {i : Int} : (slot? i).isSome ↔ 0 ≤ i ∧ i ≤ 20 := by
  have bound : i < mostWaiting ↔ i ≤ 20 := Int.lt_add_one_iff (b := 20)
  rw [slot?]
  split
  · rename_i inside
    exact iff_of_true rfl ⟨inside.1, bound.mp inside.2⟩
  · rename_i outside
    exact iff_of_false Bool.false_ne_true fun inside => outside ⟨inside.1, bound.mpr inside.2⟩

theorem slot?_natCast {i : Nat} (h : i < mostWaiting) : slot? i = some ⟨i, h⟩ := by
  rw [slot?, dif_pos ⟨Int.natCast_nonneg i, Int.ofNat_lt.mpr h⟩]
  rfl

/-- Up to its head, the table holds a list of sums, the first of them on top. -/
structure Holds (s : FixedStack A R) (waiting : List (PartialSum A R)) : Prop where
  head : s.head = waiting.length - 1
  room : waiting.length ≤ mostWaiting
  sums : ∀ i < waiting.length, s.slots[i]? = waiting.reverse[i]?

theorem holds_start : (start t).Holds [t] where
  head := rfl
  room := Nat.le_add_left 1 20
  sums i hi := by
    obtain rfl : i = 0 := Nat.lt_one_iff.mp hi
    rfl

theorem Holds.read (h : s.Holds (t :: rest)) : s.read? = some t := by
  have room : rest.length < mostWaiting := h.room
  have top := h.sums rest.length (Nat.lt_succ_self _)
  have head : s.head = rest.length := by rw [h.head, List.length_cons]; omega
  rw [List.reverse_cons, List.getElem?_append_right (by simp), List.length_reverse, Nat.sub_self,
    Vector.getElem?_eq_getElem room] at top
  rw [read?, head, slot?_natCast room]
  exact top

theorem Holds.pop (h : s.Holds (t :: rest)) : s.pop.Holds rest where
  head := by
    show s.head - 1 = _
    rw [h.head, List.length_cons]
    omega
  room := Nat.le_of_succ_le h.room
  sums i hi := by
    have same := h.sums i (Nat.lt_succ_of_lt hi)
    rwa [List.reverse_cons, List.getElem?_append_left (by rwa [List.length_reverse])] at same

theorem Holds.write (h : s.Holds waiting) (room : waiting.length < mostWaiting) :
    ∃ s', s.write? t = some s' ∧ s'.Holds (t :: waiting) := by
  have above : s.head + 1 = waiting.length := by rw [h.head]; omega
  refine ⟨⟨s.slots.set waiting.length t room, s.head + 1⟩, ?_, ?_, room, fun i hi => ?_⟩
  · rw [write?, above, slot?_natCast room]
    rfl
  · show s.head + 1 = _
    rw [above, List.length_cons]
    omega
  · rw [List.reverse_cons, Vector.getElem?_set]
    by_cases top : waiting.length = i
    · subst top
      rw [if_pos rfl, List.getElem?_append_right (by simp), List.length_reverse, Nat.sub_self]
      simp
    · have below : i < waiting.length := by
        rw [List.length_cons] at hi
        omega
      rw [if_neg top, List.getElem?_append_left (by rwa [List.length_reverse])]
      exact h.sums i below

/-! ## Rounds -/

variable [Add A] [Sub A] [Mul A] [Modulus A R] [LT R] [DecidableLT R] [Sub R] [OfScientific R] {z : A}

omit [Add A] [Sub A] [Mul A] [Sub R] [OfScientific R] in
theorem length_push_le : (PartialSum.push waiting t).length ≤ waiting.length + 1 := by
  rw [PartialSum.push]
  split
  · exact Nat.le_refl _
  · exact Nat.le_succ _

omit [Add A] [Sub A] [Mul A] [Sub R] [OfScientific R] in
theorem Holds.push (h : s.Holds waiting) (room : waiting.length < mostWaiting) :
    ∃ s', s.push? t = some s' ∧ s'.Holds (PartialSum.push waiting t) := by
  rw [push?, PartialSum.push]
  split
  · exact h.write room
  · exact ⟨s, rfl, h⟩

/-- With some sums waiting, but less than there is room for, a round stays in the table. It is a step of the search,
after which the search goes on if this is so again. -/
theorem Holds.round (h : s.Holds (t :: rest)) (room : rest.length + 1 < mostWaiting) :
    (expand? z t rest = none ∧ s.round? z = some (s, false)) ∨
      ∃ waiting s', expand? z t rest = some waiting ∧ s'.Holds waiting ∧
        s.round? z = some (s', !(20 ≤ s'.head || s'.head < 0)) := by
  rw [round?, h.read, expand?]
  dsimp only [Option.bind_eq_bind, Option.bind_some]
  split
  · exact .inl ⟨rfl, rfl⟩
  · right
    -- the head has been lowered before, so that there is room for both
    obtain ⟨s₁, first, h₁⟩ := h.pop.push (t := ⟨t.value + t.power * z, t.reach - Modulus.modulus (t.power * z),
      t.power * z⟩) (Nat.lt_of_succ_lt room)
    obtain ⟨s₂, second, h₂⟩ := h₁.push (t := ⟨t.value - t.power * z, t.reach - Modulus.modulus (t.power * z),
      t.power * z⟩) (Nat.lt_of_le_of_lt length_push_le room)
    refine ⟨_, s₂, rfl, h₂, ?_⟩
    rw [first, Option.bind_some, second, Option.bind_some]

/-- A search on a table that begins with some sums, but less than there is room for, ends as the search does : without
a sum if it excludes a point, and otherwise with some in the table. -/
theorem Holds.run : ∀ (n : Nat) {s : FixedStack A R} {t : PartialSum A R} {rest : List (PartialSum A R)},
    s.Holds (t :: rest) → rest.length + 1 < mostWaiting →
      ∃ s', s.run? z n = some s' ∧ (s'.head = -1 ∧ search z n (t :: rest) = .excluded ∨
        0 ≤ s'.head ∧ s'.head ≤ 20 ∧ search z n (t :: rest) = .possible)
  | 0, s, t, rest, h, room => by
    have head := h.head
    rw [List.length_cons] at head
    have most : mostWaiting = 21 := rfl
    exact ⟨s, rfl, .inr ⟨by omega, by omega, rfl⟩⟩
  | n + 1, s, t, rest, h, room => by
    have most : mostWaiting = 21 := rfl
    rw [run?, search]
    rcases h.round (z := z) room with ⟨stopped, round⟩ | ⟨waiting, s', step, h', round⟩
    · have head := h.head
      rw [List.length_cons] at head
      rw [round, stopped]
      exact ⟨s, rfl, .inr ⟨by omega, by omega, rfl⟩⟩
    · have head := h'.head
      have bound := h'.room
      rw [round, step]
      dsimp only [Option.bind_eq_bind, Option.bind_some]
      rcases waiting with _ | ⟨u, waiting⟩
      · -- no sum is left
        have empty : s'.head = -1 := head
        rw [if_neg (by simp [empty]), List.length_nil, if_neg (show ¬mostWaiting ≤ 0 by decide)]
        exact ⟨s', rfl, .inl ⟨empty, by cases n <;> rfl⟩⟩
      · have remaining : 0 < (u :: waiting).length := Nat.succ_pos _
        by_cases full : mostWaiting ≤ (u :: waiting).length
        · rw [if_neg (by simp; omega), if_pos full]
          exact ⟨s', rfl, .inr ⟨by omega, by omega, rfl⟩⟩
        · rw [if_pos (by simp; omega), if_neg full]
          exact Holds.run n h' (Nat.lt_of_not_le full)

end FixedStack

/-! ## Verdicts -/

section Verdicts

variable {A R : Type} [One A] [Add A] [Sub A] [Mul A] [Inv A] [Modulus A R] [LT R] [DecidableLT R]
  [One R] [Sub R] [Div R] [OfScientific R]

/-- A table of the places from 0 to 20 is enough for any search, for however many rounds : there is an outcome, the one
of `search`, and then the head is minus one if the point is excluded, and a place of the table if not. So a search on a
table comes to the verdict on every point. -/
theorem verdictOn?_eq (z : A) :
    (∀ i : Int, (FixedStack.slot? i).isSome ↔ 0 ≤ i ∧ i ≤ 20) ∧
    (∀ (n : Nat) (first : PartialSum A R), ∃ s, FixedStack.run? z n (.start first) = some s ∧
      (s.head = -1 ∧ search z n [first] = .excluded ∨
        0 ≤ s.head ∧ s.head ≤ 20 ∧ search z n [first] = .possible)) ∧
    verdictOn? z = some (verdict z) := by
  have run (z : A) (n : Nat) (first : PartialSum A R) := FixedStack.Holds.run (z := z) n
    (FixedStack.holds_start (t := first)) (Nat.lt_add_left 19 (Nat.lt_succ_self 1))
  have inside (z : A) (r : R) : verdictInsideOn? z r = some (verdictInside z r) := by
    rw [verdictInsideOn?, verdictInside]
    split
    · rfl
    · obtain ⟨s, hs, ⟨head, verdict⟩ | ⟨head, -, verdict⟩⟩ := run z searchSteps ⟨1, r / (1 - r), 1⟩
      · rw [hs, verdict, Option.map_some, FixedStack.verdict, head, if_pos (by decide)]
      · rw [hs, verdict, Option.map_some, FixedStack.verdict, if_neg (by omega)]
  refine ⟨fun i => FixedStack.isSome_slot?, run z, ?_⟩
  rw [verdictOn?, verdict]
  split
  · exact inside _ _
  · exact inside _ _

end Verdicts

end Argand.Littlewood
