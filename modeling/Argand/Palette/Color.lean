import Argand.Arithmetic
import Argand.Text.Blank

/-!
# Colors

A `Color K` has three channels. The same type serves for the colors that are computed with, whose
channels are numbers between zero and one, and for those of a picture, whose channels are bytes;
`Color.toBytes` goes from one to the other. Colors are written as six hexadecimal digits
(`Color.parse`).
-/

namespace Argand

/-- A color in its red, green and blue channel. -/
structure Color (K : Type) where
  red : K
  green : K
  blue : K
deriving Repr, DecidableEq

/-- Channels that can be brought down to bytes. -/
class Channel (K : Type) where
  /-- The nearest of the 256 levels from zero to one. -/
  level : K → UInt8

/-- Values that are no number count as zero, and the ends of the range take what lies beyond. -/
instance : Channel Float32 where
  level v := (smaller (larger v 0) 1 * 255).round.toUInt8

/-- What can be wrong with the colors of a palette. -/
inductive PaletteError where
  /-- The text is not six hexadecimal digits. -/
  | badColor (text : String)
  /-- There is no color at all. -/
  | empty
deriving Repr, DecidableEq

/-- The wording of an error. -/
def PaletteError.message : PaletteError → String
  | badColor text => "Could not parse color '" ++ text ++ "'"
  | empty => "A color scheme needs at least one color"

/-! ## Hexadecimal digits -/

/-- The value of a hexadecimal digit. -/
def hexDigit? (c : Char) : Option Nat :=
  if '0' ≤ c ∧ c ≤ '9' then some (c.toNat - '0'.toNat)
  else if 'a' ≤ c ∧ c ≤ 'f' then some (c.toNat - 'a'.toNat + 10)
  else if 'A' ≤ c ∧ c ≤ 'F' then some (c.toNat - 'A'.toNat + 10)
  else none

/-- The value of some hexadecimal digits. -/
def hexValue? (cs : List Char) : Option Nat :=
  cs.foldlM (fun n c => (hexDigit? c).map (16 * n + ·)) 0

namespace Color

variable {K : Type}

/-! ## Colors as numbers -/

/-- The color whose channels are the three lowest bytes of a number, the lowest one blue. -/
def ofNat [NatCast K] [Div K] (n : Nat) : Color K :=
  let channel (byte : Nat) : K := (byte : K) / ((255 : Nat) : K)
  ⟨channel (n / 65536 % 256), channel (n / 256 % 256), channel (n % 256)⟩

/-- Reads a color. Blanks around it and number signs before it are passed over. What is left are
six characters, all digits but for a plus sign that may stand first. -/
def parse [NatCast K] [Div K] (text : String) : Except PaletteError (Color K) :=
  let rest := (trimBlanks text.toList).dropWhile (· = '#')
  let digits := match rest with
    | '+' :: digits => digits
    | digits => digits
  match hexValue? digits with
  | some n => if rest.length = 6 then .ok (ofNat n) else .error (.badColor text)
  | none => .error (.badColor text)

/-! ## Blending -/

/-- The color at `t` on the way from `a`, at zero, to `b`, at one. -/
@[inline] def blend [Add K] [Sub K] [Mul K] [One K] (a b : Color K) (t : K) : Color K :=
  ⟨a.red * (1 - t) + b.red * t, a.green * (1 - t) + b.green * t, a.blue * (1 - t) + b.blue * t⟩

/-- A ramp that runs back over its inner colors, so that its ends meet when it is repeated. -/
def thereAndBack (ramp : List (Color K)) : List (Color K) :=
  ramp ++ ramp.tail.dropLast.reverse

/-- The color of a picture that a computed color comes down to. -/
@[inline] def toBytes [Channel K] (c : Color K) : Color UInt8 :=
  ⟨Channel.level c.red, Channel.level c.green, Channel.level c.blue⟩

end Color

end Argand
