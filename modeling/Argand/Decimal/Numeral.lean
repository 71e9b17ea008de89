import Argand.Decimal.Shortest

/-!
# Reading numbers

`readFloat?` reads a whole text as a double : digits with at most one point and at least one digit,
an optional power of ten, or the words for infinity and for a value that is not a number, behind
an optional sign. The decimal is rounded once, to the nearest double. `readNat?` and `readInt?` read
whole numbers within bounds; a plus sign may stand before either, a minus sign only before an
integer.
-/

namespace Argand

/-- An ASCII decimal digit. -/
def isDigit (c : Char) : Bool :=
  '0' ≤ c && c ≤ '9'

/-- The number that decimal digits write. -/
def digitsValue (cs : List Char) : Nat :=
  cs.foldl (fun n c => 10 * n + (c.toNat - '0'.toNat)) 0

/-- The nearest double. A decimal of magnitude beyond `10 ^ 400` or below `10 ^ -400` is infinite or
zero. -/
def Decimal.toFloat (d : Decimal) : Float :=
  let top : Int := Decimal.digitCount d.significand + d.exponent
  if d.significand = 0 ∨ top < -400 then 0
  else if 400 < top then 1 / 0
  else Float.ofScientific d.significand (d.exponent < 0) d.exponent.natAbs

namespace Numeral

/-- The power of ten at the end of a number : nothing, or a letter, an optional sign and digits. -/
def readPower? : List Char → Option Int
  | [] => some 0
  | c :: cs =>
    if c ≠ 'e' ∧ c ≠ 'E' then none
    else
      let (negative, digits) := match cs with
        | '-' :: ds => (true, ds)
        | '+' :: ds => (false, ds)
        | ds => (false, ds)
      if digits.isEmpty || !digits.all isDigit then none
      else some (if negative then -(digitsValue digits : Int) else digitsValue digits)

/-- A decimal without a sign. -/
def readDecimal? (cs : List Char) : Option Decimal :=
  let whole := cs.takeWhile isDigit
  let (places, rest) := match cs.dropWhile isDigit with
    | '.' :: after => (after.takeWhile isDigit, after.dropWhile isDigit)
    | after => ([], after)
  if whole.isEmpty && places.isEmpty then none
  else (readPower? rest).map fun p => ⟨digitsValue (whole ++ places), p - places.length⟩

/-- A magnitude : a word or a decimal. The case of letters does not matter in a word. -/
def readMagnitude? (cs : List Char) : Option Float :=
  let word := String.ofList (cs.map Char.toLower)
  if word = "inf" ∨ word = "infinity" then some (1 / 0)
  else if word = "nan" then some (0 / 0)
  else (readDecimal? cs).map Decimal.toFloat

end Numeral

/-- Reads a whole text as a double. -/
def readFloat? (s : String) : Option Float :=
  match s.toList with
  | '-' :: cs => (Numeral.readMagnitude? cs).map (- ·)
  | '+' :: cs => Numeral.readMagnitude? cs
  | cs => Numeral.readMagnitude? cs

/-- Reads one or more digits as a number no greater than `most`. -/
def readDigits? (most : Nat) (cs : List Char) : Option Nat :=
  if cs.isEmpty || !cs.all isDigit then none
  else
    let n := digitsValue cs
    if n ≤ most then some n else none

/-- Reads a whole text as a natural number no greater than `most`. -/
def readNat? (most : Nat) (s : String) : Option Nat :=
  match s.toList with
  | '+' :: cs => readDigits? most cs
  | cs => readDigits? most cs

/-- Reads a whole text as an integer from `-most - 1` to `most`. -/
def readInt? (most : Nat) (s : String) : Option Int :=
  match s.toList with
  | '-' :: cs => (readDigits? (most + 1) cs).map fun n => -(n : Int)
  | '+' :: cs => (readDigits? most cs).map Int.ofNat
  | cs => (readDigits? most cs).map Int.ofNat

end Argand
