import Argand.Palette.Color

/-!
# Color schemes

A `Scheme` gives a color to every position on a line that is one round long : its stops are spread
evenly over the round, and between two stops their colors blend (`Scheme.get`). Renderings do not
look at the stops. They use a table of at most `Scheme.mostIntervals + 1` colors taken from the
scheme at even distances (`Scheme.sampled`), and give negative positions a color of their own
(`Scheme.sample`).

Positions and channels are of different types, since a channel needs fewer digits.
-/

namespace Argand

/-- Colors for positions on a round, with a color for negative positions and one for axes. -/
structure Scheme (K : Type) where
  name : String
  stops : Array (Color K)
  negative : Color K
  axes : Color K
  stops_pos : 0 < stops.size

namespace Scheme

variable {R K : Type}

/-- The scheme of some stops, if there are any. -/
def new (name : String) (stops : Array (Color K)) (negative axes : Color K) :
    Except PaletteError (Scheme K) :=
  if h : 0 < stops.size then .ok ⟨name, stops, negative, axes, h⟩ else .error .empty

/-- The scheme of some stops given as texts. The other two colors are black and white where no text
gives them. -/
def ofTexts [NatCast K] [Div K] (name : String) (stops : List String)
    (negative axes : Option String) : Except PaletteError (Scheme K) := do
  let stops ← stops.mapM Color.parse
  let negative ← negative.elim (.ok (Color.ofNat 0x000000)) Color.parse
  let axes ← axes.elim (.ok (Color.ofNat 0xFFFFFF)) Color.parse
  new name stops.toArray negative axes

/-- The greatest number of intervals in a table of samples. -/
def mostIntervals : Nat := 17

/-- The number of intervals in the table of samples. -/
def intervals (s : Scheme K) : Nat :=
  min s.stops.size mostIntervals

theorem intervals_pos (s : Scheme K) : 0 < s.intervals := by
  have := s.stops_pos
  simp only [intervals, mostIntervals]
  omega

section Blending

variable [Add K] [Sub K] [Mul K] [One K] [Sub R] [NatCast R] [Rounding R] [Narrowing R K]

/-- The blend of the two neighbours of `w` among the stops, when the stops are at the whole numbers
and the first one comes again after the last. -/
@[inline] def blendAt (s : Scheme K) (w : R) : Color K :=
  let i := Rounding.toNat (Rounding.floor w) % s.stops.size
  have hi : i < s.stops.size := Nat.mod_lt _ s.stops_pos
  have hj : (i + 1) % s.stops.size < s.stops.size := Nat.mod_lt _ s.stops_pos
  s.stops[i].blend s.stops[(i + 1) % s.stops.size] (Narrowing.narrow (w - (i : R)))

variable [LT R] [DecidableLT R] [Zero R] [Add R] [Mul R]

/-- The color at a position. -/
@[inline] def get (s : Scheme K) (v : R) : Color K :=
  s.blendAt (wrap (v * (s.stops.size : R)) (s.stops.size : R))

/-- The colors at even distances over one round, from its start to its end. -/
@[specialize] def sampled (R : Type) [Sub R] [NatCast R] [Rounding R] [Narrowing R K] [LT R]
    [DecidableLT R] [Zero R] [Add R] [Mul R] [Div R] (s : Scheme K) :
    Vector (Color K) (s.intervals + 1) :=
  Vector.ofFn fun i => s.get ((i.val : R) / (s.intervals : R))

/-- The color at a position in a table of samples. Only the way into the round counts. -/
@[inline] def sampleIn [Finiteness R] (s : Scheme K)
    (table : Vector (Color K) (s.intervals + 1)) (v : R) : Color K :=
  if v < 0 || Finiteness.isNaN v then s.negative
  else
    let w := (v - Rounding.floor v) * (s.intervals : R)
    let i := min (Rounding.toNat (Rounding.floor w)) (s.intervals - 1)
    have hi : i + 1 < s.intervals + 1 := by
      have := s.intervals_pos
      omega
    table[i].blend table[i + 1] (Narrowing.narrow (w - (i : R)))

/-- The color at a position by the table of samples. -/
def sample [Div R] [Finiteness R] (s : Scheme K) (v : R) : Color K :=
  s.sampleIn (s.sampled R) v

end Blending

end Scheme

end Argand
