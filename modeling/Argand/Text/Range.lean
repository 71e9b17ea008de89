/-!
# Ranges of characters

A class of characters is a table of ranges of code points, least and greatest, in increasing order.
`RangeTable.contains` looks a character up.
-/

namespace Argand

/-- Ranges of code points, each with its least and greatest member. -/
abbrev RangeTable := Array (Nat × Nat)

namespace RangeTable

/-- Whether a character lies in one of the ranges. -/
def contains (t : RangeTable) (c : Char) : Bool :=
  t.any fun r => r.1 ≤ c.toNat && c.toNat ≤ r.2

end RangeTable

end Argand
