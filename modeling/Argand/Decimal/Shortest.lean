import Argand.Arithmetic

/-!
# The shortest decimal of a double

A double stands for all the reals that round to it. Of the decimals in that interval
`Decimal.shortest` takes one with the fewest digits, and of those the nearest to the double.

For a number of digits the only candidates are the two neighbours of the double on the grid of
that many digits : if any point of the grid lies in the interval, one of the two does. So the
search tries one digit, two digits and so on, in exact arithmetic, and seventeen are enough.
-/

namespace Argand

/-- The positive decimal `significand * 10 ^ exponent`, or zero. -/
structure Decimal where
  significand : Nat
  exponent : Int
deriving Repr, DecidableEq

namespace Decimal

/-- The number of decimal digits of `n`. -/
def digitCount (n : Nat) : Nat :=
  (Nat.toDigits 10 n).length

/-- A positive double and the interval around it, over one denominator : the double is
`numerator / denominator`, and `unit`, `below` and `above` give the ends of the interval as the
multiples `(unit - below) / unit` and `(unit + above) / unit` of it. The ends round to the double
when `closed`. -/
structure Interval where
  numerator : Nat
  denominator : Nat
  unit : Nat
  below : Nat
  above : Nat
  closed : Bool

namespace Interval

/-- The interval of `m * 2 ^ e`. Half a step lies above it, and below it too unless it is the least
significand of its exponent, where the step below is half as long. Halfway reals go to the even
significand. -/
def ofParts (m : Nat) (e : Int) : Interval :=
  { numerator := m * Nat.pow 2 e.toNat
    denominator := Nat.pow 2 (-e).toNat
    unit := 4 * m
    below := if m = Nat.pow 2 52 ∧ -1074 < e then 1 else 2
    above := 2
    closed := m % 2 = 0 }

/-- Whether the `n / d` multiple of `1 / denominator` lies in the interval. -/
def contains (i : Interval) (n d : Nat) : Bool :=
  let place := n * i.denominator * i.unit
  let lower := i.numerator * d * (i.unit - i.below)
  let upper := i.numerator * d * (i.unit + i.above)
  if i.closed then lower ≤ place && place ≤ upper else lower < place && place < upper

/-- The least `p` with the double below `10 ^ p`. No double is less than `10 ^ -400`. -/
def magnitude (i : Interval) : Int :=
  (digitCount (i.numerator * Nat.pow 10 400 / i.denominator) : Int) - 400

/-- The neighbour on the grid of multiples of `10 ^ p` that lies in the interval and is nearer to
the double, the upper one if they are equally near. -/
def nearestOnGrid? (i : Interval) (p : Int) : Option Decimal :=
  let up := Nat.pow 10 (-p).toNat
  let down := Nat.pow 10 p.toNat
  let floor := i.numerator * up / (i.denominator * down)
  let low := i.contains (floor * down) up
  let high := i.contains ((floor + 1) * down) up
  let nearerHigh := (2 * floor + 1) * (i.denominator * down) ≤ 2 * (i.numerator * up)
  if high && (!low || nearerHigh) then some ⟨floor + 1, p⟩
  else if low then some ⟨floor, p⟩
  else none

end Interval

/-- Writes a decimal without zeros at its end. -/
def trim (d : Decimal) : Decimal :=
  go (digitCount d.significand) d
where
  go : Nat → Decimal → Decimal
    | 0, d => d
    | fuel + 1, d =>
      if d.significand ≠ 0 ∧ d.significand % 10 = 0 then
        go fuel ⟨d.significand / 10, d.exponent + 1⟩
      else d

/-- The shortest decimal that rounds to the magnitude of a finite double. -/
def shortest (x : Float) : Decimal :=
  let parts := FloatParts.ofFloat x
  if parts.significand = 0 then ⟨0, 0⟩
  else
    let i := Interval.ofParts parts.significand parts.exponent
    let top := i.magnitude
    match (List.range 17).findSome? fun (n : Nat) => i.nearestOnGrid? (top - n - 1) with
    | some d => d.trim
    | none => ⟨0, 0⟩

end Decimal

end Argand
