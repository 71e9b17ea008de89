/-!
# Arithmetic that can overflow

Counters and addresses have a fixed number of bits. An operation on them is computed exactly, and has a result only
if the exact number has room in those bits. There is no number for what has not : a result that is missing is missing
in all that is computed from it.

`Signed` has the operations on thirty-two bits of which one is a sign, `Word` those on sixty-four bits without one.
-/

namespace Argand

/-! ## Thirty-two bits with a sign -/

namespace Signed

/-- A number in half its bits, if it has room there. -/
@[inline] def narrow? (n : Int64) : Option Int32 :=
  if n.toInt32.toInt64 = n then some n.toInt32 else none

@[inline] def add? (a b : Int32) : Option Int32 :=
  narrow? (a.toInt64 + b.toInt64)

@[inline] def sub? (a b : Int32) : Option Int32 :=
  narrow? (a.toInt64 - b.toInt64)

@[inline] def neg? (a : Int32) : Option Int32 :=
  narrow? (-a.toInt64)

end Signed

/-! ## Sixty-four bits without a sign -/

namespace Word

/-- A number as a word, if it has room there. -/
def ofNat? (n : Nat) : Option UInt64 :=
  if n < UInt64.size then some n.toUInt64 else none

def add? (a b : UInt64) : Option UInt64 :=
  ofNat? (a.toNat + b.toNat)

def sub? (a b : UInt64) : Option UInt64 :=
  if b ≤ a then some (a - b) else none

def mul? (a b : UInt64) : Option UInt64 :=
  ofNat? (a.toNat * b.toNat)

def div? (a b : UInt64) : Option UInt64 :=
  if b = 0 then none else some (a / b)

def mod? (a b : UInt64) : Option UInt64 :=
  if b = 0 then none else some (a % b)

/-- Moves the bits of a word up. Bits may be moved out of it, but not by its whole length. -/
def shiftLeft? (a distance : UInt64) : Option UInt64 :=
  if distance < 64 then some (a <<< distance) else none

end Word

end Argand
