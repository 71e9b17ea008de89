import Argand.Point
import Mathlib.Algebra.Order.Field.Basic
import Mathlib.Data.Rat.Defs
import Mathlib.Tactic.FieldSimp
import Mathlib.Tactic.Ring

/-!
# Points in exact arithmetic

Over a commutative ring of numbers, points are a commutative ring with the operations that they have anyway
(`Point.commRing`), and over an ordered field they are a field (`Point.field`), since only zero is at no
distance from zero. The numbers are part of it (`Point.ofReal`) : to add or to multiply a number is to add or
to multiply the point that it is. That, and that no result fails, is what `Exact` asks of numbers that act on
others.
-/

namespace Argand

/-- Numbers act on others as those that they stand for, and there are no failed results. -/
structure Exact {A R : Type} [CommRing A] [Ring R] [HAdd A R A] [HMul A R A] [FinitePoint A] (ι : R →+* A) :
    Prop where
  add_eq : ∀ (a : A) (x : R), a + x = a + ι x
  mul_eq : ∀ (a : A) (x : R), a * x = a * ι x
  isFinite : ∀ a : A, FinitePoint.isFinite a = true

/-- Rational numbers are all numbers. -/
instance exactRationals : Finiteness ℚ :=
  ⟨fun _ => true, fun _ => false⟩

namespace Point

variable {R : Type}

@[ext] theorem ext {a b : Point R} (re : a.re = b.re) (im : a.im = b.im) : a = b := by
  cases a
  cases b
  rw [mk.injEq]
  exact ⟨re, im⟩

/-! ## Parts -/

section Parts

variable [CommRing R] (a b : Point R)

@[simp] theorem re_zero : (0 : Point R).re = 0 := rfl

@[simp] theorem im_zero : (0 : Point R).im = 0 := rfl

@[simp] theorem re_one : (1 : Point R).re = 1 := rfl

@[simp] theorem im_one : (1 : Point R).im = 0 := rfl

@[simp] theorem re_neg : (-a).re = -a.re := rfl

@[simp] theorem im_neg : (-a).im = -a.im := rfl

@[simp] theorem re_add : (a + b).re = a.re + b.re := rfl

@[simp] theorem im_add : (a + b).im = a.im + b.im := rfl

@[simp] theorem re_sub : (a - b).re = a.re - b.re := rfl

@[simp] theorem im_sub : (a - b).im = a.im - b.im := rfl

@[simp] theorem re_mul : (a * b).re = a.re * b.re - a.im * b.im := rfl

@[simp] theorem im_mul : (a * b).im = a.re * b.im + a.im * b.re := rfl

end Parts

/-! ## Rings of points -/

section Rings

variable [CommRing R]

instance commRing : CommRing (Point R) where
  add_assoc a b c := by ext <;> simp <;> ring
  zero_add a := by ext <;> simp
  add_zero a := by ext <;> simp
  add_comm a b := by ext <;> simp <;> ring
  neg_add_cancel a := by ext <;> simp
  sub_eq_add_neg a b := by ext <;> simp <;> ring
  mul_assoc a b c := by ext <;> simp <;> ring
  one_mul a := by ext <;> simp
  mul_one a := by ext <;> simp
  mul_comm a b := by ext <;> simp <;> ring
  zero_mul a := by ext <;> simp
  mul_zero a := by ext <;> simp
  left_distrib a b c := by ext <;> simp <;> ring
  right_distrib a b c := by ext <;> simp <;> ring
  nsmul := nsmulRec
  zsmul := zsmulRec

/-- The point on the real axis for a number. -/
def ofReal : R →+* Point R where
  toFun x := ⟨x, 0⟩
  map_zero' := rfl
  map_one' := rfl
  map_add' x y := by ext <;> simp
  map_mul' x y := by ext <;> simp

theorem add_real (a : Point R) (x : R) : a + x = a + ofReal x := by
  ext
  · rfl
  · exact (add_zero a.im).symm

theorem mul_real (a : Point R) (x : R) : a * x = a * ofReal x := by
  ext
  · show a.re * x = a.re * x - a.im * 0
    ring
  · show a.im * x = a.re * 0 + a.im * x
    ring

end Rings

/-! ## Fields of points -/

section Fields

variable [Field R] [LinearOrder R] [IsStrictOrderedRing R]

theorem normSq_ne_zero {a : Point R} (h : a ≠ 0) : a.normSq ≠ 0 := by
  intro zero
  have parts := (mul_self_add_mul_self_eq_zero).mp zero
  exact h (ext parts.1 parts.2)

instance field : Field (Point R) where
  exists_pair_ne := ⟨0, 1, fun h => zero_ne_one (congrArg re h)⟩
  mul_inv_cancel a h := by
    have apart := normSq_ne_zero h
    ext
    · show a.re * (a.re / a.normSq) - a.im * (-a.im / a.normSq) = 1
      field_simp
      rw [normSq]
      ring
    · show a.re * (-a.im / a.normSq) + a.im * (a.re / a.normSq) = 0
      ring
  inv_zero := by
    ext
    · exact zero_div _
    · show -(0 : R) / _ = 0
      rw [neg_zero, zero_div]
  div_eq_mul_inv a b := by
    ext
    · show (a.re * b.re + a.im * b.im) / b.normSq =
        a.re * (b.re / b.normSq) - a.im * (-b.im / b.normSq)
      ring
    · show (a.im * b.re - a.re * b.im) / b.normSq =
        a.re * (-b.im / b.normSq) + a.im * (b.re / b.normSq)
      ring
  nnqsmul := _
  qsmul := _

end Fields

theorem exact_rational : Exact (ofReal : ℚ →+* Point ℚ) :=
  ⟨add_real, mul_real, fun _ => rfl⟩

end Point

end Argand
