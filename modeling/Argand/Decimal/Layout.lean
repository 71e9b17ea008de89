import Argand.Decimal.Shortest

/-!
# Writing doubles

`Layout.write` writes the shortest decimal of a double. A `Layout` says which numbers are written
in positional notation and how a whole number ends; the rest get one digit before the point and an
exponent. The library uses two layouts : `Layout.plain` never writes an exponent, and
`Layout.literal` always shows that it writes a real number.
-/

namespace Argand

/-- How doubles are written. -/
structure Layout where
  /-- Whether a number is written positionally, by the power of ten of its first digit. -/
  positional : Int → Bool
  /-- What follows a whole number in positional notation. -/
  wholeEnd : List Char

namespace Layout

/-- Always positional, and whole numbers without a point. -/
def plain : Layout :=
  ⟨fun _ => true, []⟩

/-- Positional from `10 ^ -4` up to `10 ^ 16`, and whole numbers with a point and a zero. -/
def literal : Layout :=
  ⟨fun place => decide (-4 ≤ place) && decide (place < 16), ['.', '0']⟩

/-- Digits with the point after the first `point` of them; zeros fill what is missing. -/
def writePositional (l : Layout) (digits : List Char) (point : Int) : List Char :=
  if point ≤ 0 then '0' :: '.' :: List.replicate (-point).toNat '0' ++ digits
  else
    let whole := point.toNat
    if digits.length ≤ whole then
      digits ++ List.replicate (whole - digits.length) '0' ++ l.wholeEnd
    else digits.take whole ++ '.' :: digits.drop whole

/-- The first digit, the others after a point if there are any, and the power of ten. -/
def writeExponent (digits : List Char) (place : Int) : List Char :=
  let power := 'e' :: (toString place).toList
  match digits with
  | [] => power
  | [d] => d :: power
  | d :: rest => d :: '.' :: rest ++ power

/-- Writes a decimal that is not negative. -/
def writeDecimal (l : Layout) (d : Decimal) : List Char :=
  let digits := Nat.toDigits 10 d.significand
  let point : Int := digits.length + d.exponent
  if l.positional (point - 1) then l.writePositional digits point
  else writeExponent digits (point - 1)

/-- Writes a double. The sign of zero is shown. -/
def write (l : Layout) (x : Float) : String :=
  if x.isNaN then "NaN"
  else
    let sign := if (FloatParts.ofFloat x).negative then ['-'] else []
    if x.isInf then String.ofList (sign ++ ['i', 'n', 'f'])
    else String.ofList (sign ++ l.writeDecimal (Decimal.shortest x))

end Layout

end Argand
