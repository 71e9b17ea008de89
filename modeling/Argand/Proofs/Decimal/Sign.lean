import Argand.Decimal.Numeral

/-!
# The sign of numbers that are read

A decimal has no sign, and the double that it is read as has none either (`Decimal.signClear_toFloat`).
Small decimals are read as a product or a quotient of two doubles and the others are rounded at once, so
this is shown of the operations on unpacked doubles, which keep the positive sign (`Unsigned`), and of the
format, where it is the highest bit.
-/

namespace Argand

open Float.Model (UnpackedFloat)
open Float.Model.UnpackedFloat (Sign)

/-! ## Unpacked doubles -/

/-- An unpacked double does not have the minus sign. -/
def Unsigned : UnpackedFloat → Prop
  | .notANumber => True
  | .infinity s => s = .positive
  | .zero s => s = .positive
  | .finite s _ _ _ => s = .positive

theorem Unsigned.ite {c : Prop} [Decidable c] {u v : UnpackedFloat} (hu : Unsigned u) (hv : Unsigned v) :
    Unsigned (if c then u else v) := by
  by_cases h : c
  · rwa [if_pos h]
  · rwa [if_neg h]

theorem Unsigned.dite {c : Prop} [Decidable c] {u : c → UnpackedFloat} {v : ¬c → UnpackedFloat}
    (hu : ∀ h, Unsigned (u h)) (hv : ∀ h, Unsigned (v h)) : Unsigned (if h : c then u h else v h) := by
  by_cases h : c
  · rw [dif_pos h]
    exact hu h
  · rw [dif_neg h]
    exact hv h

theorem unsigned_roundWithAccuracy (spec : Float.Model.Format) (m : Nat) (e : Int)
    (accuracy : UnpackedFloat.Accuracy) :
    Unsigned (UnpackedFloat.roundWithAccuracy spec .positive m e accuracy) := by
  unfold UnpackedFloat.roundWithAccuracy
  dsimp only
  exact .dite (fun _ => rfl) (fun _ => rfl)

theorem Unsigned.mul {u v : UnpackedFloat} (spec : Float.Model.Format) (hu : Unsigned u) (hv : Unsigned v) :
    Unsigned (u.mul spec v) := by
  cases u <;> cases v <;> first
    | trivial
    | (cases hu; cases hv; first | rfl | exact unsigned_roundWithAccuracy spec _ _ _)

theorem Unsigned.div {u v : UnpackedFloat} (spec : Float.Model.Format) (hu : Unsigned u) (hv : Unsigned v) :
    Unsigned (u.div spec v) := by
  cases u <;> cases v <;> first
    | trivial
    | (cases hu; cases hv; first | rfl | exact unsigned_roundWithAccuracy spec _ _ _)

theorem unsigned_ofNat (spec : Float.Model.Format) (n : Nat) : Unsigned (UnpackedFloat.ofNat spec n) := by
  unfold UnpackedFloat.ofNat UnpackedFloat.ofInt UnpackedFloat.normalize
  split
  · rename_i h
    have := Int.compare_eq_lt.mp h
    omega
  · rfl
  · unfold UnpackedFloat.round
    exact unsigned_roundWithAccuracy spec _ _ _

theorem unsigned_ofScientific (spec : Float.Model.Format) (m : Nat) (e : Int) :
    Unsigned (UnpackedFloat.ofScientific spec m e) := by
  unfold UnpackedFloat.ofScientific
  refine .dite (fun _ => rfl) fun _ => .ite rfl (.ite rfl (.ite ?_ ?_))
  · exact .mul spec rfl rfl
  · exact .div spec rfl rfl

/-! ## Bits -/

/-- The highest bit of a double, its sign, is clear. -/
def SignClear (x : Float) : Prop :=
  x.toBits.toNat < Nat.pow 2 63

instance (x : Float) : Decidable (SignClear x) :=
  inferInstanceAs (Decidable (_ < _))

theorem SignClear.not_negative {x : Float} (h : SignClear x) : (FloatParts.ofFloat x).negative = false := by
  have : x.toBits.toNat / Nat.pow 2 63 = 0 := Nat.div_eq_of_lt h
  simp [FloatParts.ofFloat, this]

theorem toNat_packComponents_lt (exponent : BitVec 11) (mantissa : BitVec 52) :
    (UnpackedFloat.packComponents .binary64 .positive exponent mantissa).toNat < Nat.pow 2 63 := by
  have fields : (UnpackedFloat.packComponents .binary64 .positive exponent mantissa).toNat =
      exponent.toNat <<< 52 ||| mantissa.toNat := by
    show (0#1 ++ exponent ++ mantissa).toNat = _
    rw [BitVec.toNat_append, BitVec.toNat_append, BitVec.toNat_ofNat, Nat.zero_mod, Nat.zero_shiftLeft,
      Nat.zero_or]
  rw [fields]
  refine Nat.or_lt_two_pow ?_ (Nat.lt_trans mantissa.isLt (by decide))
  have := exponent.isLt
  rw [Nat.shiftLeft_eq]
  omega

theorem Unsigned.signClear {u : UnpackedFloat} (h : Unsigned u) : SignClear (.ofModel (.pack u)) := by
  show (UnpackedFloat.pack .binary64 u).toNat < Nat.pow 2 63
  cases u with
  | notANumber => exact toNat_packComponents_lt _ _
  | infinity s | zero s =>
    cases h
    exact toNat_packComponents_lt _ _
  | finite s m e pos =>
    cases h
    unfold UnpackedFloat.pack
    dsimp only
    repeat' split
    all_goals exact toNat_packComponents_lt _ _

theorem SignClear.unsigned {x : Float} (h : SignClear x) : Unsigned x.toModel.unpack := by
  have sign : @UnpackedFloat.unpackSign .binary64 x.toModel.toBits.toBitVec = 0#1 := by
    have : x.toModel.toBits.toNat >>> 63 = 0 := by
      rw [Nat.shiftRight_eq_div_pow]
      exact Nat.div_eq_of_lt h
    apply BitVec.eq_of_toNat_eq
    show x.toModel.toBits.toNat >>> 63 % 2 = 0
    rw [this]
  unfold Float.Model.unpack UnpackedFloat.unpack
  dsimp only
  rw [sign]
  exact .ite (.ite rfl True.intro) (.ite (.dite (fun _ => rfl) (fun _ => rfl)) rfl)

/-! ## Decimals -/

theorem signClear_ofScientific (m : Nat) (down : Bool) (e : Nat) :
    SignClear (Float.ofScientific m down e) := by
  unfold Float.ofScientific
  split
  · rename_i small
    have power : ∀ i (hi : i < Float.exactlyRepresentablePowersOfTen.size),
        SignClear Float.exactlyRepresentablePowersOfTen[i] := by
      decide +kernel
    have whole : SignClear m.toUInt64.toFloat := (unsigned_ofNat _ _).signClear
    split
    · exact (whole.unsigned.div _ (power _ _).unsigned).signClear
    · exact (whole.unsigned.mul _ (power _ _).unsigned).signClear
  · exact (unsigned_ofScientific _ _ _).signClear

theorem Decimal.signClear_toFloat (d : Decimal) : SignClear d.toFloat := by
  unfold toFloat
  dsimp only
  split
  · decide +kernel
  · split
    · decide +kernel
    · exact signClear_ofScientific _ _ _

end Argand
