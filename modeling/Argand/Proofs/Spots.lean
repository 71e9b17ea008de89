import Argand.Axes

/-!
# Drawings as spots

Whatever is drawn over a picture is drawn by putting colors on pixels, one after the other. So a drawing is
a list of `Spot`s, which depends on the sides of the picture and on nothing else of it (`Puts`); where no
spot is, the picture is as it was (`Picture.get?_putAll_of_forall_ne`). A drawing that is made of others has
the spots of all of them in turn (`Puts.foldl`).

The axes are drawn in this way (`Viewport.puts_drawAxes`).
-/

namespace Argand

/-- A color for a pixel. -/
structure Spot where
  pixel : Pixel
  color : Color UInt8
deriving Repr, DecidableEq

namespace Picture

/-- Puts the colors of spots on their pixels. -/
def putAll (p : Picture) (spots : List Spot) : Picture :=
  spots.foldl (fun p spot => p.put spot.pixel.column spot.pixel.row spot.color) p

variable (p : Picture) {column row x y : Nat} {c : Color UInt8}

@[simp] theorem width_put : (p.put column row c).width = p.width := by
  rw [put]
  split <;> rfl

@[simp] theorem height_put : (p.put column row c).height = p.height := by
  rw [put]
  split <;> rfl

/-- Putting a color on a pixel leaves the others as they are. -/
theorem get?_put_of_ne (h : Pixel.mk column row ≠ ⟨x, y⟩) :
    (p.put column row c).get? x y = p.get? x y := by
  rw [put]
  split
  case isFalse => rfl
  case isTrue inside =>
    rw [get?, get?]
    show (if x < p.width then (p.pixels.setIfInBounds (row * p.width + column) c)[y * p.width + x]?
      else none) = _
    split
    case isFalse => rfl
    case isTrue hx =>
      have apart : row * p.width + column ≠ y * p.width + x := by
        intro same
        have columns : column = x := by
          simpa [Nat.mod_eq_of_lt, inside.1, hx] using congrArg (· % p.width) same
        have rows : row * p.width = y * p.width := by omega
        exact h (by rw [columns, Nat.eq_of_mul_eq_mul_right (Nat.zero_lt_of_lt hx) rows])
      rw [Array.getElem?_setIfInBounds_ne apart]

theorem get?_put : (p.put column row c).get? x y =
    if (x < p.width ∧ y < p.height) ∧ Pixel.mk column row = ⟨x, y⟩ then some c else p.get? x y := by
  by_cases here : Pixel.mk column row = ⟨x, y⟩
  · obtain ⟨rfl, rfl⟩ := Pixel.mk.inj here
    by_cases inside : column < p.width ∧ row < p.height
    · have stored : row * p.width + column < p.pixels.size := by
        have rows := Nat.mul_le_mul_right p.width (Nat.succ_le_of_lt inside.2)
        rw [Nat.succ_mul, Nat.mul_comm p.height] at rows
        rw [p.size_eq]
        omega
      rw [if_pos ⟨inside, rfl⟩, put, if_pos inside, get?]
      show (if column < p.width then (p.pixels.setIfInBounds (row * p.width + column) c)[row * p.width + column]?
        else none) = _
      rw [if_pos inside.1, Array.getElem?_setIfInBounds_self_of_lt stored]
    · rw [if_neg fun h => inside h.1, put, if_neg inside]
  · rw [if_neg fun h => here h.2, get?_put_of_ne p here]

@[simp] theorem putAll_nil : p.putAll [] = p :=
  rfl

theorem putAll_append (first second : List Spot) :
    p.putAll (first ++ second) = (p.putAll first).putAll second :=
  List.foldl_append

@[simp] theorem width_putAll (spots : List Spot) : (p.putAll spots).width = p.width := by
  induction spots generalizing p with
  | nil => rfl
  | cons spot spots ih => exact (ih _).trans p.width_put

@[simp] theorem height_putAll (spots : List Spot) : (p.putAll spots).height = p.height := by
  induction spots generalizing p with
  | nil => rfl
  | cons spot spots ih => exact (ih _).trans p.height_put

/-- Where no spot is, a picture is as it was. -/
theorem get?_putAll_of_forall_ne {spots : List Spot} (h : ∀ spot ∈ spots, spot.pixel ≠ ⟨x, y⟩) :
    (p.putAll spots).get? x y = p.get? x y := by
  induction spots generalizing p with
  | nil => rfl
  | cons spot spots ih =>
    obtain ⟨first, others⟩ := List.forall_mem_cons.mp h
    exact (ih _ others).trans (p.get?_put_of_ne first)

/-- Spots of one color are seen wherever the picture has pixels for them. -/
theorem get?_putAll_of_color {spots : List Spot} (color : ∀ spot ∈ spots, spot.color = c) :
    (p.putAll spots).get? x y =
      if (x < p.width ∧ y < p.height) ∧ ∃ spot ∈ spots, spot.pixel = ⟨x, y⟩ then some c else p.get? x y := by
  induction spots generalizing p with
  | nil => exact (if_neg fun h => absurd h.2.choose_spec.1 List.not_mem_nil).symm
  | cons spot spots ih =>
    obtain ⟨rfl, others⟩ := List.forall_mem_cons.mp color
    have first := @get?_put p spot.pixel.column spot.pixel.row x y spot.color
    have later := ih (p.put spot.pixel.column spot.pixel.row spot.color) others
    rw [width_put, height_put, first] at later
    refine later.trans ?_
    simp only [List.mem_cons, exists_eq_or_imp]
    by_cases inside : x < p.width ∧ y < p.height
    · by_cases covered : ∃ s ∈ spots, s.pixel = ⟨x, y⟩
      · rw [if_pos ⟨inside, covered⟩, if_pos ⟨inside, .inr covered⟩]
      · simp only [covered, and_false, or_false, if_false]
    · simp only [inside, false_and, if_false]

end Picture

/-! ## Drawings -/

/-- A drawing puts spots on a picture, which are known from the sides of the picture. -/
def Puts (draw : Picture → Picture) (spots : Nat → Nat → List Spot) : Prop :=
  ∀ p : Picture, draw p = p.putAll (spots p.width p.height)

namespace Puts

theorem put (column row : Nat) (c : Color UInt8) :
    Puts (·.put column row c) fun _ _ => [⟨⟨column, row⟩, c⟩] :=
  fun _ => rfl

/-- A drawing that is made only under a condition, which may depend on the sides of the picture. -/
theorem ite {draw : Picture → Picture} {spots : Nat → Nat → List Spot} (h : Puts draw spots)
    (condition : Nat → Nat → Bool) :
    Puts (fun p => if condition p.width p.height then draw p else p) fun width height =>
      if condition width height then spots width height else [] := by
  intro p
  cases holds : condition p.width p.height with
  | true => simpa only [holds, if_true] using h p
  | false => simp [holds]

/-- Drawings made in turn. -/
theorem foldl {α : Type} {draw : Picture → α → Picture} {spots : α → Nat → Nat → List Spot}
    (h : ∀ a, Puts (draw · a) (spots a)) (l : List α) :
    Puts (l.foldl draw) fun width height => l.flatMap fun a => spots a width height := by
  intro p
  induction l generalizing p with
  | nil => rfl
  | cons a l ih =>
    have drawn : draw p a = p.putAll (spots a p.width p.height) := h a p
    have rest : l.foldl draw (draw p a) = (draw p a).putAll
        (l.flatMap fun b => spots b (draw p a).width (draw p a).height) := ih (draw p a)
    rw [drawn, Picture.width_putAll, Picture.height_putAll, ← Picture.putAll_append] at rest
    exact (congrArg (l.foldl draw) drawn).trans rest

/-- One drawing over another. -/
theorem comp {below above : Picture → Picture} {spots spots' : Nat → Nat → List Spot}
    (h : Puts below spots) (h' : Puts above spots') :
    Puts (fun p => above (below p)) fun width height => spots width height ++ spots' width height := by
  intro p
  have later := h' (below p)
  rwa [h p, Picture.width_putAll, Picture.height_putAll, ← Picture.putAll_append, ← h p] at later

end Puts

/-! ## Axes -/

namespace Segment

section Corners

variable {R : Type} [Zero R] [LE R] [DecidableLE R] [Rounding R]

/-- The spot for a corner, if it can be one of a pixel. -/
def cornerSpots (corner : R × R) (c : Color UInt8) : List Spot :=
  if 0 ≤ corner.1 && 0 ≤ corner.2 then
    [⟨⟨Rounding.toNat corner.1, Rounding.toNat corner.2⟩, c⟩]
  else []

theorem puts_putCorner (corner : R × R) (c : Color UInt8) :
    Puts (putCorner · corner c) fun _ _ => cornerSpots corner c :=
  (Puts.put _ _ c).ite fun _ _ => 0 ≤ corner.1 && 0 ≤ corner.2

end Corners

variable {R : Type} [Zero R] [One R] [LT R] [DecidableLT R] [LE R] [DecidableLE R] [Finiteness R]
  [Add R] [Sub R] [Mul R] [Div R] [Neg R] [NatCast R] [OfScientific R] [Rounding R]

/-- The spots along a segment, on a picture of given sides. -/
def spots (s : Segment R) (v : Viewport R) (c : Color UInt8) (width height : Nat) : List Spot :=
  let a := v.screen s.start
  let b := v.screen s.stop
  let n := steps ((width + height) * 2) a b
  (List.range (n + 1)).flatMap fun s => cornerSpots (visited a b n s) c

theorem puts_draw (s : Segment R) (v : Viewport R) (c : Color UInt8) :
    Puts (s.draw v c) (s.spots v c) := by
  intro p
  let a := v.screen s.start
  let b := v.screen s.stop
  let n := steps ((p.width + p.height) * 2) a b
  exact Puts.foldl (fun s => puts_putCorner (visited a b n s) c) (List.range (n + 1)) p

end Segment

variable {R : Type} [Zero R] [One R] [LT R] [DecidableLT R] [LE R] [DecidableLE R] [Finiteness R]
  [Add R] [Sub R] [Mul R] [Div R] [Neg R] [NatCast R] [IntCast R] [OfScientific R] [Rounding R]

/-- The spots of both axes, on a picture of given sides. -/
def Viewport.axesSpots (v : Viewport R) (c : Color UInt8) (width height : Nat) : List Spot :=
  (axes R).flatMap fun s => s.spots v c width height

theorem Viewport.puts_drawAxes (v : Viewport R) (c : Color UInt8) :
    Puts (v.drawAxes c) (v.axesSpots c) :=
  Puts.foldl (fun s => s.puts_draw v c) (axes R)

end Argand
