import Argand.Littlewood.Tracker
import Argand.Proofs.Passes
import Argand.Proofs.Spots

/-!
# Dots before a backdrop

The dots of a `Tracker` are spots on the picture that they are drawn on : one block of pixels for every
estimate in use, as far as the picture has them (`Tracker.puts_drawRoots`). Behind them every pixel of the
viewport is painted, be it with one color or with two (`Tracker.drawBackdrop_eq_paint`).
-/

namespace Argand.Littlewood.Tracker

/-! ## Dots -/

section Plotting

variable {R : Type} [Zero R] [LT R] [LE R] [DecidableLE R] [Finiteness R] [Add R] [Sub R] [Div R] [Neg R]
  [NatCast R] [OfScientific R] [Rounding R]

/-- The spots of the dot for a point, on a picture of given sides. -/
def dotSpots (v : Viewport R) (point : Point R) (size : Nat) (c : Color UInt8) (width height : Nat) :
    List Spot :=
  let (x, y) := v.screen point
  let margin : R := (size : R)
  let near (v : R) (extent : Nat) : Bool := -margin ≤ v && v ≤ (extent : R) + margin
  if near x width && near y height then
    let left := Rounding.toInt (Rounding.floor x) - (size / 2 : Nat)
    let top := Rounding.toInt (Rounding.floor y) - (size / 2 : Nat)
    (List.range size).flatMap fun (dx : Nat) => (List.range size).flatMap fun (dy : Nat) =>
      if 0 ≤ left + dx && 0 ≤ top + dy then [⟨⟨(left + dx).toNat, (top + dy).toNat⟩, c⟩] else []
  else []

theorem puts_plot (v : Viewport R) (point : Point R) (size : Nat) (c : Color UInt8) :
    Puts (plot v point size c) (dotSpots v point size c) := by
  let x := (v.screen point).1
  let y := (v.screen point).2
  let margin : R := (size : R)
  let near (v : R) (extent : Nat) : Bool := -margin ≤ v && v ≤ (extent : R) + margin
  let left := Rounding.toInt (Rounding.floor x) - (size / 2 : Nat)
  let top := Rounding.toInt (Rounding.floor y) - (size / 2 : Nat)
  have pixel (dx dy : Nat) := (Puts.put (left + dx).toNat (top + dy).toNat c).ite
    fun _ _ => 0 ≤ left + dx && 0 ≤ top + dy
  have block := Puts.foldl (fun dx : Nat => Puts.foldl (fun dy : Nat => pixel dx dy) (List.range size))
    (List.range size)
  exact block.ite fun width height => near x width && near y height

end Plotting

section Roots

variable {R K : Type} [Zero R] [LT R] [DecidableLT R] [LE R] [DecidableLE R]
  [Finiteness R] [Add R] [Sub R] [Mul R] [Div R] [Neg R] [NatCast R] [OfScientific R]
  [Rounding R] [Narrowing R K] [Add K] [Sub K] [Mul K] [One K] [Channel K]

/-- The spots of the dots for all estimates in use, on a picture of given sides. -/
def rootSpots (t : Tracker R) (scheme : Scheme K) (width height : Nat) : List Spot :=
  (degrees t.shape).flatMap fun (d : Nat) =>
    (polynomialsOf t.shape d).flatMap fun id =>
      ((t.rootsOf? id).getD #[]).toList.flatMap fun root =>
        dotSpots t.viewport root (dotSize t.shape d)
          (scheme.sample ((d : R) / (t.shape.maxDegree : R))).toBytes width height

theorem puts_drawRoots (t : Tracker R) (scheme : Scheme K) :
    Puts (t.drawRoots scheme) (t.rootSpots scheme) := by
  have block (d id : Nat) := Puts.foldl
    (fun root : Point R => puts_plot t.viewport root (dotSize t.shape d)
      (scheme.sample ((d : R) / (t.shape.maxDegree : R))).toBytes)
    ((t.rootsOf? id).getD #[]).toList
  have all := Puts.foldl (fun d : Nat => Puts.foldl (block d) (polynomialsOf t.shape d)) (degrees t.shape)
  intro target
  refine Eq.trans ?_ (all target)
  refine List.foldl_ext _ _ _ fun target d _ => List.foldl_ext _ _ _ fun target id _ => ?_
  cases t.rootsOf? id with
  | none => rfl
  | some roots => exact (Array.foldl_toList _).symm

end Roots

/-! ## The backdrop -/

variable {R K : Type} [Zero R] [One R] [LT R] [DecidableLT R] [Finiteness R] [Add R] [Sub R] [Mul R]
  [Div R] [Neg R] [NatCast R] [OfScientific R] [Elementary R] [Channel K]

/-- The shade of a point behind the dots. -/
def backdrop (t : Tracker R) (scheme : Scheme K) (point : Point R) : Color K :=
  if t.proven then
    match verdict point with
    | .excluded => scheme.negative
    | .possible => scheme.axes
  else scheme.negative

theorem drawBackdrop_eq_paint (t : Tracker R) (w : Workers) (scheme : Scheme K) (target : Picture) :
    t.drawBackdrop scheme target =
      t.viewport.paint w (fun offset => t.backdrop scheme (t.viewport.pointAtOffset offset)) target := by
  rw [drawBackdrop]
  split
  case isTrue proven =>
    apply Viewport.paint_congr
    intro offset _
    exact (if_pos proven).symm
  case isFalse unproven =>
    rw [t.viewport.flood_eq_paint w]
    apply Viewport.paint_congr
    intro offset _
    exact (if_neg unproven).symm

end Argand.Littlewood.Tracker
