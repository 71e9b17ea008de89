/-!
# Littlewood polynomials

The polynomials all of whose coefficients are one or minus one, each with a word for its number. The
highest bit of the word that is set only ends it. The bits below are the coefficients, from the
lowest one, which is the coefficient of the highest power : a bit that is set is one, and one that
is not is minus one.
-/

namespace Argand.Littlewood

/-- The degree of a polynomial. The words without a coefficient have degree minus one. -/
def degree (id : UInt32) : Int :=
  if id < 2 then -1 else (id.toNat.log2 : Int) - 1

section Values

variable {A R : Type} [Zero A] [Mul A] [HAdd A R A] [One R] [Neg R]

/-- The coefficient at the lowest bit of a word. -/
@[inline] def coefficient (word : UInt32) : R :=
  if word &&& 1 = 1 then 1 else -1

/-- Goes on with the value of a polynomial at `z`, whose `n` next coefficients are the lowest bits
of a word, from the value `r` that those before them have. -/
@[specialize] def evaluateFrom (z : A) : Nat → UInt32 → A → A
  | 0, _, r => r
  | n + 1, word, r => evaluateFrom z n (word >>> 1) (r * z + (coefficient word : R))

/-- The value of a polynomial. -/
@[inline] def evaluate (id : UInt32) (z : A) : A :=
  evaluateFrom (R := R) z id.toNat.log2 id 0

end Values

end Argand.Littlewood
