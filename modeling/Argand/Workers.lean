/-!
# Workers

A pass computes every cell of an array from the index of the cell. `Workers.map` cuts the array into
regions of neighbouring cells, has each computed by a worker of its own, and puts the results
together when all of them are there. No cell depends on another cell of the same pass, so neither
the number of workers nor their pace can be seen in the result. If the computation of a cell can
fail, there is an array only if no cell has failed (`Workers.map?`).
-/

namespace Argand

/-- A run of neighbouring cells. -/
structure Region where
  start : Nat
  size : Nat
deriving Repr, DecidableEq

/-- The cells of a region. -/
@[specialize] def Region.fill {α : Type} (r : Region) (cell : Nat → α) : Array α :=
  Array.ofFn fun i : Fin r.size => cell (r.start + i.val)

/-- Some workers, at least one. -/
structure Workers where
  count : Nat
  count_pos : 0 < count

namespace Workers

/-- As many workers as asked for, where none means one. -/
def ofNat (n : Nat) : Workers :=
  ⟨max n 1, by omega⟩

/-- The regions that `cells` cells are cut into, one for each worker who gets any. All are of the
same size but for the last, which may be smaller. -/
def regions (w : Workers) (cells : Nat) : List Region :=
  let busy := min w.count cells
  let share := (cells + busy - 1) / busy
  (List.range ((cells + share - 1) / share)).map fun n =>
    ⟨n * share, min share (cells - n * share)⟩

/-- The greatest number of cells that are computed without the help of workers. -/
def fewCells : Nat := 64

/-- Computes `cells` cells from their indices. Few cells are not worth sharing, and one worker has
nobody to share with. -/
@[specialize] def map {α : Type} (w : Workers) (cells : Nat) (cell : Nat → α) : Array α :=
  if w.count = 1 ∨ cells ≤ fewCells then Region.fill ⟨0, cells⟩ cell
  else
    let tasks := (w.regions cells).map fun r => Task.spawn fun _ => r.fill cell
    tasks.foldl (fun done task => done ++ task.get) (Array.mkEmpty cells)

/-! ## The regions make up the array -/

theorem toList_fill {α : Type} (r : Region) (cell : Nat → α) :
    (r.fill cell).toList = (List.range' r.start r.size).map cell := by
  apply List.ext_getElem <;> simp [Region.fill]

/-- Regions of `share` cells, the last cut off at the end, make up the cells. -/
theorem range_eq_flatMap_regions (cells share : Nat) : ∀ n : Nat,
    (List.range n).flatMap (fun i => List.range' (i * share) (min share (cells - i * share))) =
      List.range (min (n * share) cells)
  | 0 => by simp
  | n + 1 => by
    rw [List.range_succ, List.flatMap_append, range_eq_flatMap_regions cells share n]
    simp only [List.range_eq_range', List.flatMap_singleton, Nat.succ_mul]
    by_cases h : n * share ≤ cells
    · rw [Nat.min_eq_left h]
      have joined := @List.range'_append_1 0 (n * share) (min share (cells - n * share))
      rw [Nat.zero_add] at joined
      rw [joined]
      congr 1
      omega
    · have none_left : min share (cells - n * share) = 0 := by omega
      rw [none_left]
      simp only [List.range'_zero, List.append_nil]
      congr 1
      omega

/-- The regions of the workers make up the cells. -/
theorem flatMap_regions (w : Workers) (cells : Nat) :
    (w.regions cells).flatMap (fun r => List.range' r.start r.size) = List.range cells := by
  simp only [regions, List.flatMap_map]
  rw [range_eq_flatMap_regions]
  congr 1
  have := w.count_pos
  rcases Nat.eq_zero_or_pos cells with rfl | hc
  · simp
  · have hb : 0 < min w.count cells := by omega
    generalize min w.count cells = busy at hb ⊢
    have hs : 0 < (cells + busy - 1) / busy := Nat.div_pos (by omega) hb
    generalize (cells + busy - 1) / busy = share at hs ⊢
    have hd := Nat.div_add_mod' (cells + share - 1) share
    have hm := Nat.mod_lt (cells + share - 1) hs
    generalize (cells + share - 1) / share * share = covered at hd ⊢
    omega

/-- A pass gives every cell its own value. -/
theorem toList_map {α : Type} (w : Workers) (cells : Nat) (cell : Nat → α) :
    (w.map cells cell).toList = (List.range cells).map cell := by
  have gathered : ∀ (rs : List Region) (done : Array α),
      ((rs.map fun r => Task.spawn fun _ => r.fill cell).foldl
        (fun done task => done ++ task.get) done).toList =
        done.toList ++ (rs.flatMap fun r => List.range' r.start r.size).map cell := by
    intro rs
    induction rs with
    | nil => simp
    | cons r rs ih =>
      intro done
      rw [List.map_cons, List.foldl_cons, ih]
      simp [← toList_fill, Task.spawn]
  rw [map]
  split
  · rw [toList_fill, List.range_eq_range']
  · rw [gathered, flatMap_regions]
    rfl

@[simp] theorem size_map {α : Type} (w : Workers) (cells : Nat) (cell : Nat → α) :
    (w.map cells cell).size = cells := by
  rw [← Array.length_toList, toList_map]
  simp

/-! ## Cells that may fail -/

/-- Computes `cells` cells from their indices, if each of them can be computed. -/
@[inline] def map? {α : Type} (w : Workers) (cells : Nat) (cell : Nat → Option α) :
    Option (Vector α cells) :=
  Vector.mapM id ⟨w.map cells cell, size_map w cells cell⟩

end Workers

end Argand
