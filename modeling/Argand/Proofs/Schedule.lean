import Mathlib.Data.List.Nodup
import Mathlib.Tactic.Push
import Argand.Proofs.Passes

/-!
# Schedules of a pass

`Workers.map` computes the regions of a pass one by one and puts them together. Here the workers write into
one array that they all share (`Work`), each the cells of its own region in order, and nothing is known of
their pace : a schedule names the worker of every write, and whoever has cells left can be next
(`Work.follow?`). A worker who has nobody to share with has one region, which is everything.

At every moment each cell either has been written, once, and has its value, or is left to one worker and
is as it was (`Work.Consistent`). The regions see to that at the start, and a write takes one cell from
those that are left to those that are written. So a pass goes on as long as there are cells left, and
when there are none the array is that of `Workers.map`, whatever the schedule and the number of workers
(`Work.follow_covers`).
-/

namespace Argand

/-- A write to a cell. -/
structure Write where
  worker : Nat
  cell : Nat
deriving Repr, DecidableEq

/-- A pass that is under way. -/
structure Work (α : Type) where
  /-- The cells of the pass, which all workers write to. -/
  out : Array α
  /-- What is left of the region of each worker. -/
  left : List Region
  /-- The writes so far. -/
  log : List Write
deriving Repr, DecidableEq

namespace Work

variable {α : Type}

/-- A pass over an array before any write. -/
def start (w : Workers) (out : Array α) : Work α :=
  ⟨out, w.regions out.size, []⟩

/-- A worker writes the next cell of its region, if there is one left. -/
def write? (cell : Nat → α) (p : Work α) (worker : Nat) : Option (Work α) :=
  match p.left[worker]? with
  | some ⟨i, size + 1⟩ => some
      { out := p.out.setIfInBounds i (cell i)
        left := p.left.set worker ⟨i + 1, size⟩
        log := p.log ++ [⟨worker, i⟩] }
  | _ => none

/-- Workers write in the order of a schedule, if each of them has a cell left when its turn comes. -/
def follow? (cell : Nat → α) (p : Work α) (schedule : List Nat) : Option (Work α) :=
  schedule.foldlM (write? cell) p

/-- All workers have come to the end of their regions. -/
def Finished (p : Work α) : Prop :=
  ∀ r ∈ p.left, r.size = 0

instance (p : Work α) : Decidable p.Finished :=
  inferInstanceAs (Decidable (∀ r ∈ p.left, r.size = 0))

/-- The cells that have been written, in order. -/
def written (p : Work α) : List Nat :=
  p.log.map (·.cell)

/-- The cells that are left, worker by worker. -/
def pending (p : Work α) : List Nat :=
  p.left.flatMap fun r => List.range' r.start r.size

variable {cell : Nat → α} {out : Array α} {p q : Work α}

/-! ## One write -/

/-- Taking an item off one of several lists takes it off all of them together. -/
theorem perm_flatMap_set {β γ : Type} {f : β → List γ} {a b : β} {x : γ} (h : f a = x :: f b) :
    ∀ {l : List β} {k : Nat}, l[k]? = some a → (l.flatMap f).Perm (x :: (l.set k b).flatMap f)
  | c :: l, 0, hk => by
    cases hk
    rw [List.flatMap_cons, h]
    rfl
  | c :: l, k + 1, hk => by
    rw [List.set_cons_succ, List.flatMap_cons, List.flatMap_cons]
    exact ((perm_flatMap_set h (l := l) hk).append_left (f c)).trans List.perm_middle

/-- A write takes a cell from those that are left, gives it its value, and is logged. -/
theorem write?_eq_some {worker : Nat} (h : p.write? cell worker = some q) :
    ∃ i, q.out = p.out.setIfInBounds i (cell i) ∧ q.log = p.log ++ [⟨worker, i⟩] ∧
      p.pending.Perm (i :: q.pending) := by
  rw [write?] at h
  split at h
  · rename_i i size next
    cases h
    exact ⟨i, rfl, rfl, perm_flatMap_set (List.range'_succ ..) next⟩
  · cases h

/-- A pass with cells left is not stuck. -/
theorem exists_write?_eq_some (cell : Nat → α) (h : ¬p.Finished) :
    ∃ worker q, p.write? cell worker = some q := by
  rw [Finished] at h
  push Not at h
  obtain ⟨⟨i, size⟩, hr, some_left⟩ := h
  obtain ⟨worker, next⟩ := List.mem_iff_getElem?.mp hr
  obtain ⟨size, rfl⟩ := Nat.exists_eq_succ_of_ne_zero some_left
  exact ⟨worker, _, by rw [write?, next]⟩

theorem pending_of_finished (h : p.Finished) : p.pending = [] :=
  List.flatMap_eq_nil_iff.mpr fun r hr => List.range'_eq_nil_iff.mpr (h r hr)

/-! ## The invariant -/

/-- A pass over `out` that is under way : the cells are those written and those left, each once, and the
written ones have their values. -/
structure Consistent (cell : Nat → α) (out : Array α) (p : Work α) : Prop where
  size : p.out.size = out.size
  cells : (p.written ++ p.pending).Perm (List.range out.size)
  value : ∀ i, p.out[i]? = if i ∈ p.written then some (cell i) else out[i]?

theorem consistent_start (w : Workers) (cell : Nat → α) (out : Array α) :
    (start w out).Consistent cell out where
  size := rfl
  cells := .of_eq (w.flatMap_regions out.size)
  value _ := (if_neg List.not_mem_nil).symm

namespace Consistent

theorem lt_size (h : p.Consistent cell out) {i : Nat} (hi : i ∈ p.written ++ p.pending) : i < out.size :=
  List.mem_range.mp (h.cells.mem_iff.mp hi)

theorem nodup (h : p.Consistent cell out) : p.written.Nodup :=
  (List.nodup_append.mp (h.cells.nodup_iff.mpr List.nodup_range)).1

theorem write {worker : Nat} (h : p.Consistent cell out) (hq : p.write? cell worker = some q) :
    q.Consistent cell out := by
  obtain ⟨i, hout, hlog, taken⟩ := write?_eq_some hq
  have inside : i < out.size :=
    h.lt_size (List.mem_append_right _ (taken.mem_iff.mpr List.mem_cons_self))
  have hwritten : q.written = p.written ++ [i] := by
    rw [written, hlog, List.map_append]
    rfl
  refine ⟨?_, ?_, ?_⟩
  · rw [hout, Array.size_setIfInBounds, h.size]
  · rw [hwritten, List.append_assoc]
    exact (taken.symm.append_left _).trans h.cells
  · intro j
    rw [hout, Array.getElem?_setIfInBounds, h.size, if_pos inside, h.value, hwritten]
    rcases eq_or_ne i j with rfl | other
    · rw [if_pos rfl, if_pos (List.mem_append_right _ (List.mem_singleton_self i))]
    · simp only [if_neg other, List.mem_append, List.mem_singleton, other.symm, or_false]

/-- What a schedule leads to is consistent. -/
theorem follow : ∀ {schedule : List Nat} {p : Work α}, p.Consistent cell out →
    p.follow? cell schedule = some q → q.Consistent cell out
  | [], p, h, hq => by
    cases hq
    exact h
  | worker :: schedule, p, h, hq => by
    rw [follow?, List.foldlM_cons] at hq
    obtain ⟨next, hnext, hq⟩ := Option.bind_eq_some_iff.mp hq
    exact (h.write hnext).follow hq

/-- In the end every cell has been written and has its value. -/
theorem written_perm (h : p.Consistent cell out) (finished : p.Finished) :
    p.written.Perm (List.range out.size) := by
  have cells := h.cells
  rwa [pending_of_finished finished, List.append_nil] at cells

theorem out_eq (h : p.Consistent cell out) (finished : p.Finished) (w : Workers) :
    p.out = w.map out.size cell := by
  apply Array.ext_getElem?
  intro i
  rw [h.value]
  by_cases inside : i < out.size
  · rw [if_pos ((h.written_perm finished).mem_iff.mpr (List.mem_range.mpr inside)),
      w.getElem?_map inside]
  · rw [if_neg fun hi => inside (h.lt_size (List.mem_append_left _ hi)),
      Array.getElem?_eq_none (by omega), Array.getElem?_eq_none (by rw [Workers.size_map]; omega)]

end Consistent

/-! ## Every schedule -/

/-- A pass can be brought to its end from wherever it is. -/
theorem exists_follow?_finished (cell : Nat → α) (p : Work α) :
    ∃ schedule q, p.follow? cell schedule = some q ∧ q.Finished := by
  by_cases finished : p.Finished
  · exact ⟨[], p, rfl, finished⟩
  · obtain ⟨worker, next, hnext⟩ := exists_write?_eq_some cell finished
    obtain ⟨i, -, -, taken⟩ := write?_eq_some hnext
    have fewer : next.pending.length < p.pending.length := by
      rw [taken.length_eq]
      exact Nat.lt_succ_self _
    obtain ⟨schedule, q, hq, done⟩ := exists_follow?_finished cell next
    exact ⟨worker :: schedule, q, by rw [follow?, List.foldlM_cons, hnext]; exact hq, done⟩
termination_by p.pending.length

/-- Whatever the number of workers and the schedule, at every moment of a pass no cell has been written
twice or outside the array, the written cells have their values and the others are as they were; the pass
can go on to its end; and there each cell has been written once, by one worker, and the array has the
value of every cell, as that of `Workers.map` and of any other schedule of any other workers does. -/
theorem follow_covers (threads : Nat) (cell : Nat → α) (out : Array α) {schedule : List Nat} {p : Work α}
    (run : (start (.ofNat threads) out).follow? cell schedule = some p) :
    (p.written.Nodup ∧ (∀ i ∈ p.written, i < out.size) ∧
      ∀ i, p.out[i]? = if i ∈ p.written then some (cell i) else out[i]?) ∧
    (∃ others q, (start (.ofNat threads) out).follow? cell (schedule ++ others) = some q ∧ q.Finished) ∧
    (p.Finished →
      p.written.Perm (List.range out.size) ∧
      (∀ i < out.size, ∃! worker, ⟨worker, i⟩ ∈ p.log) ∧
      (∀ i < out.size, p.out[i]? = some (cell i)) ∧
      (∀ threads', p.out = (Workers.ofNat threads').map out.size cell) ∧
      ∀ threads' (out' : Array α) schedule' q, out'.size = out.size →
        (start (.ofNat threads') out').follow? cell schedule' = some q → q.Finished → q.out = p.out) := by
  have consistent := (consistent_start (.ofNat threads) cell out).follow run
  refine ⟨⟨consistent.nodup, fun i hi => consistent.lt_size (List.mem_append_left _ hi),
    consistent.value⟩, ?_, ?_⟩
  · obtain ⟨others, q, hq, done⟩ := exists_follow?_finished cell p
    exact ⟨others, q, by rw [follow?, List.foldlM_append, ← follow?, run]; exact hq, done⟩
  · intro finished
    have all := consistent.written_perm finished
    have mem_written : ∀ i < out.size, i ∈ p.written := fun i hi =>
      all.mem_iff.mpr (List.mem_range.mpr hi)
    refine ⟨all, ?_, ?_, fun threads' => consistent.out_eq finished _, ?_⟩
    · intro i hi
      obtain ⟨⟨worker, _⟩, logged, rfl⟩ := List.mem_map.mp (mem_written i hi)
      refine ⟨worker, logged, fun other hother => ?_⟩
      have same := List.inj_on_of_nodup_map consistent.nodup hother logged rfl
      exact congrArg Write.worker same
    · intro i hi
      rw [consistent.value, if_pos (mem_written i hi)]
    · intro threads' out' schedule' q size run' finished'
      have consistent' := (consistent_start (.ofNat threads') cell out').follow run'
      rw [consistent'.out_eq finished' (.ofNat threads), consistent.out_eq finished (.ofNat threads), size]

/-- Three workers on five cells, of whom the last has one cell, take turns out of order. -/
theorem follow_covers_five :
    let cell := fun i : Nat => i * i
    let out := Array.replicate 5 0
    ∃ p, (start (.ofNat 3) out).follow? cell [1, 2, 0, 1, 0] = some p ∧ p.Finished ∧
      p.written = [2, 4, 0, 3, 1] ∧ (∀ i < 5, ∃! worker, ⟨worker, i⟩ ∈ p.log) ∧
      ∀ threads, p.out = (Workers.ofNat threads).map 5 cell := by
  intro cell out
  have run : (start (.ofNat 3) out).follow? cell [1, 2, 0, 1, 0] = some
      ⟨#[0, 1, 4, 9, 16], [⟨2, 0⟩, ⟨4, 0⟩, ⟨5, 0⟩],
        [⟨1, 2⟩, ⟨2, 4⟩, ⟨0, 0⟩, ⟨1, 3⟩, ⟨0, 1⟩]⟩ := by decide
  obtain ⟨-, -, done⟩ := follow_covers 3 cell out run
  have finished : Finished (α := Nat) ⟨#[0, 1, 4, 9, 16], [⟨2, 0⟩, ⟨4, 0⟩, ⟨5, 0⟩],
      [⟨1, 2⟩, ⟨2, 4⟩, ⟨0, 0⟩, ⟨1, 3⟩, ⟨0, 1⟩]⟩ := by decide
  obtain ⟨-, once, -, same, -⟩ := done finished
  exact ⟨_, run, finished, rfl, once, same⟩

end Work

end Argand
