import Argand.Littlewood.Table
import Argand.Proofs.Passes

/-!
# Tables pass by pass

`estimates` are the tables of roots as they follow from a seed, without workers and buffers : the first has
the points that the seed gives to the places, and each of the others has every slot refined from the whole
table before it, by a step that grows smaller (`stepAfter`).

To refine a slot that is in use takes the slots in use of its block (`refine_congr`), and these are in the
table if numbers of polynomials have room in a word (`Shape.address_lt_slots`, `lt_maxDegree_of_lt_degree`).
So a pass does not depend on what is read where there is no slot (`Shape.refined_missing`).
-/

namespace Argand.Littlewood

/-! ## What is read -/

section Reads

variable {A : Type} [One A] [Mul A] [Sub A] {read read' : Nat → A}

theorem separation_succ (read : Nat → A) (z : A) (base k d : Nat) :
    separation read z base k (d + 1) = if d = k then separation read z base k d
      else separation read z base k d * (z - read (base + d)) := by
  rw [separation, Nat.fold_succ]
  rfl

theorem separation_congr (z : A) (base k : Nat) : ∀ d : Nat,
    (∀ j < d, read (base + j) = read' (base + j)) → separation read z base k d = separation read' z base k d
  | 0, _ => rfl
  | d + 1, same => by
    rw [separation_succ, separation_succ, separation_congr z base k d fun j hj => same j (by omega),
      same d (by omega)]

variable {R : Type} [Zero A] [Div A] [HAdd A R A] [HMul A R A] [One R] [Neg R] [FinitePoint A]

/-- The next estimate of a slot depends on the slot and on those in use of its block. -/
theorem refine_congr (s : Shape) {address : Nat} (step : R) (own : read address = read' address)
    (block : ∀ j < (degree (address / s.maxDegree).toUInt32).toNat,
      read (s.address (address / s.maxDegree) j) = read' (s.address (address / s.maxDegree) j)) :
    refine s read address step = refine s read' address step := by
  have product := separation_congr (read' address) (s.address (address / s.maxDegree) 0)
    (address % s.maxDegree) _ block
  rw [refine, refine, Shape.split]
  dsimp only
  rw [own, product]

end Reads

/-! ## Addresses -/

theorem lt_maxDegree_of_lt_degree {s : Shape} (room : s.maxDegree ≤ 30) {id j : Nat}
    (hid : id < s.polynomials) (hj : j < (degree id.toUInt32).toNat) : j < s.maxDegree := by
  have small : id < 2 ^ 32 := Nat.lt_of_lt_of_le hid (Nat.pow_le_pow_right (by decide) (by omega))
  have word : id.toUInt32.toNat = id := by
    exact Nat.mod_eq_of_lt small
  rw [degree] at hj
  split at hj
  · exact (Nat.not_lt_zero j hj).elim
  · rename_i has_degree
    have : id ≠ 0 := by
      rintro rfl
      exact has_degree (by decide)
    have := (Nat.log2_lt this).mpr hid
    rw [word] at hj
    omega

namespace Shape

variable (s : Shape) {id j : Nat}

theorem address_lt_slots (hid : id < s.polynomials) (hj : j < s.maxDegree) : s.address id j < s.slots := by
  have := Nat.mul_le_mul_right s.maxDegree (Nat.succ_le_of_lt hid)
  rw [Nat.succ_mul] at this
  rw [address, slots]
  omega

theorem div_lt_polynomials {address : Nat} (h : address < s.slots) :
    address / s.maxDegree < s.polynomials :=
  Nat.div_lt_of_lt_mul (by
    rw [Nat.mul_comm]
    exact h)

theorem address_div (hj : j < s.maxDegree) : s.address id j / s.maxDegree = id := by
  rw [address, Nat.mul_comm, Nat.mul_add_div (by omega), Nat.div_eq_of_lt hj, Nat.add_zero]

theorem address_mod (hj : j < s.maxDegree) : s.address id j % s.maxDegree = j := by
  rw [address, Nat.mul_comm, Nat.mul_add_mod, Nat.mod_eq_of_lt hj]

theorem split_address (hj : j < s.maxDegree) : s.split (s.address id j) = (id, j) := by
  rw [split, s.address_div hj, s.address_mod hj]

end Shape

/-! ## Tables -/

section Tables

variable {R : Type} [Zero R] [One R] [Finiteness R] [Add R] [Sub R] [Mul R] [Div R] [Neg R]

/-- The table after a pass, in which `missing` is read where there is no slot. -/
def Shape.refined (s : Shape) (missing : Point R) (step : R) (table : Array (Point R)) : Array (Point R) :=
  Array.ofFn fun address : Fin s.slots => refine s (fun i => table.getD i missing) address step

theorem Shape.refined_missing (s : Shape) (room : s.maxDegree ≤ 30) (missing missing' : Point R) (step : R)
    {table : Array (Point R)} (size : table.size = s.slots) :
    s.refined missing step table = s.refined missing' step table := by
  have present : ∀ i < s.slots, table.getD i missing = table.getD i missing' := by
    intro i hi
    rw [Array.getD_eq_getD_getElem?, Array.getD_eq_getD_getElem?, Array.getElem?_eq_getElem (by omega),
      Option.getD_some, Option.getD_some]
  rw [refined, refined]
  congr 1
  funext address
  have polynomial := s.div_lt_polynomials address.isLt
  refine refine_congr s step (present address address.isLt) fun j hj => present _ ?_
  exact s.address_lt_slots polynomial (lt_maxDegree_of_lt_degree room polynomial hj)

variable [NatCast R] [OfScientific R]

/-- The table that a seed begins with. -/
def Shape.seeded (s : Shape) (seed : UInt32) : Array (Point R) :=
  Array.ofFn fun address : Fin s.slots =>
    seedPoint (s.coordinate address).1 (s.coordinate address).2 seed

/-- The step after some passes. -/
def stepAfter : Nat → R
  | 0 => 1
  | k + 1 => stepAfter k * (0.999 : R)

/-- The table after some passes from a seed, in which `missing` is read where there is no slot. -/
def estimates (s : Shape) (missing : Point R) (seed : UInt32) : Nat → Array (Point R)
  | 0 => s.seeded seed
  | k + 1 => s.refined missing (stepAfter k) (estimates s missing seed k)

theorem size_estimates (s : Shape) (missing : Point R) (seed : UInt32) :
    ∀ k, (estimates s missing seed k).size = s.slots
  | 0 => Array.size_ofFn
  | _ + 1 => Array.size_ofFn

theorem estimates_missing {s : Shape} (room : s.maxDegree ≤ 30) (missing missing' : Point R)
    (seed : UInt32) : ∀ k, estimates s missing seed k = estimates s missing' seed k
  | 0 => rfl
  | k + 1 => by
    rw [estimates, estimates, estimates_missing room missing missing' seed k,
      s.refined_missing room missing missing' _ (size_estimates s missing' seed k)]

end Tables

end Argand.Littlewood
