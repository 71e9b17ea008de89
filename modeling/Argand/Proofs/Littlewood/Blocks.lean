import Mathlib.Logic.Function.Iterate
import Argand.Proofs.Littlewood.History

/-!
# Polynomials keep to themselves

All estimates stand in one table, and only the arithmetic of addresses keeps those of one polynomial apart
from those of the next. To see what a refinement reads, `refine?` does the same with reads that may fail :
it gives what `refine` gives if all reads succeed that are made (`refine?_eq`). It succeeds for every slot
when nothing can be read but what is in the block of the slot and in the table (`refine?_readBlock`).

So two trackers that agree on the slots in use of a polynomial (`Tracker.AgreeOn`) agree on them after any
number of passes, whatever else their tables hold (`advance_independent`).
-/

namespace Argand.Littlewood

/-! ## Reads that may fail -/

section Reads

variable {A R : Type} [Zero A] [One A] [Mul A] [Sub A] [Div A] [HAdd A R A] [HMul A R A] [One R] [Neg R]
  [FinitePoint A] {read? : Nat → Option A} {read : Nat → A}

/-- `separation` by reads that may fail. -/
def separation? (read? : Nat → Option A) (z : A) (base k d : Nat) : Option A :=
  d.fold (fun j _ product? =>
    if j = k then product?
    else product?.bind fun product => (read? (base + j)).map fun estimate => product * (z - estimate))
    (some 1)

/-- `refine` by reads that may fail. -/
def refine? (s : Shape) (read? : Nat → Option A) (address : Nat) (step : R) : Option A :=
  let (id, k) := s.split address
  (read? address).bind fun z =>
    let d := (degree id.toUInt32).toNat
    if d ≤ k then some z
    else
      (separation? read? z (s.address id 0) k d).map fun product =>
        let lead : R := coefficient id.toUInt32
        let next := z - evaluate (R := R) id.toUInt32 z * lead / product * step
        if FinitePoint.isFinite next then next else z

omit [Zero A] [Div A] [FinitePoint A] in
theorem separation?_eq (z : A) (base k : Nat) : ∀ d : Nat,
    (∀ j < d, j ≠ k → read? (base + j) = some (read (base + j))) →
      separation? read? z base k d = some (separation read z base k d)
  | 0, _ => rfl
  | d + 1, reads => by
    have before := separation?_eq z base k d fun j hj apart => reads j (by omega) apart
    rw [separation?] at before
    rw [separation_succ, separation?, Nat.fold_succ, before]
    split
    · rfl
    · rename_i apart
      rw [reads d (by omega) apart]
      rfl

/-- A refinement reads its own slot, and the other slots in use of its block if it is in use itself. -/
theorem refine?_eq (s : Shape) {address : Nat} (step : R) (own : read? address = some (read address))
    (others : ∀ j < (degree (address / s.maxDegree).toUInt32).toNat, j ≠ address % s.maxDegree →
      read? (s.address (address / s.maxDegree) j) = some (read (s.address (address / s.maxDegree) j))) :
    refine? s read? address step = some (refine s read address step) := by
  have product := separation?_eq (read address) (s.address (address / s.maxDegree) 0)
    (address % s.maxDegree) _ others
  rw [refine?, refine, Shape.split]
  dsimp only
  rw [own, Option.bind_some]
  split
  · rfl
  · rw [product]
    rfl

end Reads

/-! ## Blocks -/

namespace Shape

/-- What can be read in the block of a polynomial. -/
def readBlock {A : Type} (s : Shape) (table : Array A) (id address : Nat) : Option A :=
  if address / s.maxDegree = id then table[address]? else none

end Shape

section Tables

variable {R : Type} [Zero R] [One R] [Finiteness R] [Add R] [Sub R] [Mul R] [Div R] [Neg R]

/-- Every slot can be refined by reads in its block and in the table alone. -/
theorem refine?_readBlock (s : Shape) (room : s.maxDegree ≤ 30) {table : Array (Point R)}
    (size : table.size = s.slots) (missing : Point R) (step : R) {address : Nat}
    (h : address < s.slots) :
    refine? s (s.readBlock table (address / s.maxDegree)) address step =
      some (refine s (fun i => table.getD i missing) address step) := by
  have polynomial := s.div_lt_polynomials h
  have inside : ∀ i < s.slots, i / s.maxDegree = address / s.maxDegree →
      s.readBlock table (address / s.maxDegree) i = some (table.getD i missing) := by
    intro i hi block
    rw [Shape.readBlock, if_pos block, Array.getD_eq_getD_getElem?, Array.getElem?_eq_getElem (by omega),
      Option.getD_some]
  refine refine?_eq s step (inside address h rfl) fun j hj _ => ?_
  have slot := lt_maxDegree_of_lt_degree room polynomial hj
  exact inside _ (s.address_lt_slots polynomial slot) (s.address_div slot)

end Tables

/-! ## Passes -/

namespace Tracker

variable {R : Type} [Zero R] [LT R] [Finiteness R]

/-- Two trackers agree on a polynomial : they have tables of one shape with the same estimates in the slots
in use of it, and will make the same steps. -/
structure AgreeOn (s : Shape) (id : Nat) (t t' : Tracker R) : Prop where
  shape_eq : t.shape = s
  shape_eq' : t'.shape = s
  size_eq : t.table.size = s.slots
  size_eq' : t'.table.size = s.slots
  step_eq : t'.step = t.step
  slots_eq : ∀ k < (degree id.toUInt32).toNat, t'.table[s.address id k]? = t.table[s.address id k]?

variable [One R] [Add R] [Sub R] [Mul R] [Div R] [Neg R] [OfScientific R]

theorem getElem?_table_advance (t : Tracker R) {address : Nat} (h : address < t.table.size) :
    t.advance.table[address]? = some (refine t.shape (fun i => t.table.getD i 0) address t.step) :=
  Workers.getElem?_map t.workers h

theorem AgreeOn.advance {s : Shape} {id : Nat} {t t' : Tracker R} (h : AgreeOn s id t t')
    (room : s.maxDegree ≤ 30) (polynomial : id < s.polynomials) : AgreeOn s id t.advance t'.advance where
  shape_eq := h.shape_eq
  shape_eq' := h.shape_eq'
  size_eq := (Workers.size_map ..).trans h.size_eq
  size_eq' := (Workers.size_map ..).trans h.size_eq'
  step_eq := congrArg (· * (0.999 : R)) h.step_eq
  slots_eq := by
    intro k hk
    have slot : ∀ j < (degree id.toUInt32).toNat, s.address id j / s.maxDegree = id := fun j hj =>
      s.address_div (lt_maxDegree_of_lt_degree room polynomial hj)
    have present := s.address_lt_slots polynomial (lt_maxDegree_of_lt_degree room polynomial hk)
    have same : ∀ j < (degree id.toUInt32).toNat,
        t'.table.getD (s.address id j) 0 = t.table.getD (s.address id j) 0 := by
      intro j hj
      rw [Array.getD_eq_getD_getElem?, Array.getD_eq_getD_getElem?, h.slots_eq j hj]
    rw [getElem?_table_advance t (by rw [h.size_eq]; exact present),
      getElem?_table_advance t' (by rw [h.size_eq']; exact present), h.shape_eq, h.shape_eq', h.step_eq]
    congr 1
    apply refine_congr s t.step (same k hk)
    rw [slot k hk]
    exact same

theorem AgreeOn.iterate_advance {s : Shape} {id : Nat} {t t' : Tracker R} (h : AgreeOn s id t t')
    (room : s.maxDegree ≤ 30) (polynomial : id < s.polynomials) : ∀ n : Nat,
      AgreeOn s id (Tracker.advance^[n] t) (Tracker.advance^[n] t')
  | 0 => h
  | n + 1 => by
    rw [Function.iterate_succ_apply', Function.iterate_succ_apply']
    exact (h.iterate_advance room polynomial n).advance room polynomial

/-- Trackers that agree on the slots in use of a polynomial and on the step do so after any number of
passes, whatever values the rest of their tables hold. Every slot that a pass gives can be found by reads
in the block of its polynomial and in the table alone. -/
theorem advance_independent (s : Shape) (room : s.maxDegree ≤ 30) {id : Nat}
    (polynomial : id < s.polynomials) {t t' : Tracker R} (shape : t.shape = s) (shape' : t'.shape = s)
    (size : t.table.size = s.slots) (size' : t'.table.size = s.slots) (step : t'.step = t.step)
    (same : ∀ k : Nat, k < degree id.toUInt32 →
      t'.table[s.address id k]? = t.table[s.address id k]?) (n : Nat) :
    (∀ k : Nat, k < degree id.toUInt32 → ∃ z, (advance^[n] t).table[s.address id k]? = some z ∧
      (advance^[n] t').table[s.address id k]? = some z) ∧
    ∀ address < s.slots, ∃ z, (advance^[n + 1] t).table[address]? = some z ∧
      refine? s (s.readBlock (advance^[n] t).table (address / s.maxDegree)) address
        (advance^[n] t).step = some z := by
  have start : AgreeOn s id t t' :=
    ⟨shape, shape', size, size', step, fun k hk => same k (by omega)⟩
  have later := start.iterate_advance room polynomial n
  refine ⟨?_, ?_⟩
  · intro k hk
    have used : k < (degree id.toUInt32).toNat := by omega
    have present := s.address_lt_slots polynomial (lt_maxDegree_of_lt_degree room polynomial used)
    rw [← later.size_eq] at present
    exact ⟨_, Array.getElem?_eq_getElem present,
      (later.slots_eq k used).trans (Array.getElem?_eq_getElem present)⟩
  · intro address h
    refine ⟨_, ?_, refine?_readBlock s room later.size_eq 0 _ h⟩
    rw [Function.iterate_succ_apply', getElem?_table_advance _ (by rw [later.size_eq]; exact h),
      later.shape_eq]

/-- A tracker that holds seeds, and one with the same estimates for `z * z - z + 1` and no points elsewhere,
agree on these. -/
theorem advance_independent_quadratic :
    let viewport : Viewport Float :=
      ⟨7, 4, 0, 6, by decide, by decide, by decide +kernel, by decide +kernel⟩
    let s : Shape := ⟨4, 16⟩
    let t : Tracker Float := .new viewport 42 s (.ofNat 3)
    let table' : Array (Point Float) := Array.ofFn fun address : Fin s.slots =>
      if address.val / 4 = 13 then t.table.getD address 0 else ⟨0 / 0, 1⟩
    let t' : Tracker Float := { t with roots := ⟨table', table', true, rfl⟩ }
    13 < s.polynomials ∧ t.table.size = s.slots ∧ t'.table.size = s.slots ∧
      (∀ k : Nat, k < degree (13 : Nat).toUInt32 →
        t'.table[s.address 13 k]? = t.table[s.address 13 k]?) ∧
      (∀ k : Nat, k < degree (13 : Nat).toUInt32 → ∃ z, (advance^[3] t).table[s.address 13 k]? = some z ∧
        (advance^[3] t').table[s.address 13 k]? = some z) ∧
      ∀ address < s.slots, ∃ z, (advance^[4] t).table[address]? = some z ∧
        refine? s (s.readBlock (advance^[3] t).table (address / s.maxDegree)) address
          (advance^[3] t).step = some z := by
  intro viewport s t table' t'
  have polynomial : 13 < s.polynomials := by decide
  have size : t.table.size = s.slots := (hasRefined_new viewport 42 s (.ofNat 3)).size_table
  have size' : table'.size = s.slots := Array.size_ofFn
  have filled : ∀ k < s.maxDegree, table'[s.address 13 k]? = t.table[s.address 13 k]? := by
    intro k slot
    have present := s.address_lt_slots polynomial slot
    rw [Array.getElem?_ofFn, dif_pos present, if_pos (s.address_div slot), Array.getD_eq_getD_getElem?,
      Array.getElem?_eq_getElem (size.symm ▸ present), Option.getD_some]
  have shape : t.shape = s := rfl
  clear_value table' t
  have shape' : t'.shape = s := shape
  have size' : t'.table.size = s.slots := size'
  have same : ∀ k : Nat, k < degree (13 : Nat).toUInt32 →
      t'.table[s.address 13 k]? = t.table[s.address 13 k]? := fun k hk =>
    filled k (lt_maxDegree_of_lt_degree (by decide) polynomial (by omega))
  exact ⟨polynomial, size, size', same,
    advance_independent s (by decide) polynomial shape shape' size size' rfl same 3⟩

end Tracker

end Argand.Littlewood
