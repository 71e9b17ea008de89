import Mathlib.Data.List.Induction
import Argand.Engine.Basic
import Argand.Proofs.Littlewood.Estimates
import Argand.Proofs.Move
import Argand.Proofs.Since

/-!
# Histories of trackers

An engine that tracks roots obeys `Command`s, in any order. What it holds after a history depends on the
shape of its table, on the seed that was set last (`lastSeed`) and on the number of passes since it last
started over (`passes`), and on nothing else : the table is the one of `estimates`, and the step goes with
it (`estimates_obeyAll`). Moves of the view, whether they fail or not, drawing, and what is drawn have no
part in it.

The invariant is `Tracker.HasRefined`. Starting over establishes it, because it fills every slot in front,
and a pass carries it on, because it reads the whole old table.
-/

namespace Argand

namespace Littlewood

/-! ## Commands -/

/-- What an engine that tracks roots can be told to do. -/
inductive Command where
  | advance
  | reset
  | reseed (seed : UInt32)
  | changeView
  | setView (center : Point Float) (zoom : Float)
  | resize (width height : Nat)
  | setProven (proven : Bool)
  | setAxes (axes : Bool)
  /-- Drawing, which changes the picture and nothing else. -/
  | render (scheme : Scheme Float32) (target : Picture)
  | employ (workers : Workers)

namespace Command

/-- The seed that a command sets. -/
def seed? : Command → Option UInt32
  | reseed seed => some seed
  | _ => none

/-- Whether a command starts the estimates over. -/
def restarts : Command → Bool
  | reset => true
  | reseed _ => true
  | _ => false

/-- Whether a command makes a pass. -/
def isAdvance : Command → Bool
  | advance => true
  | _ => false

/-- The number of passes after one more command. -/
def count (c : Command) (k : Nat) : Nat :=
  if c.restarts then 0 else if c.isAdvance then k + 1 else k

end Command

/-- The seed that was set last. -/
def lastSeed (seed : UInt32) (history : List Command) : UInt32 :=
  history.foldl (fun seed c => c.seed?.getD seed) seed

/-- The number of passes in a history since its last start. -/
def passes (history : List Command) : Nat :=
  countSince Command.restarts Command.isAdvance history

/-! ## The invariant -/

namespace Tracker

variable {R : Type} [Zero R] [LT R] [Finiteness R]

/-- Two trackers hold the same estimates, whatever they show of them. -/
structure SameEstimates (t t' : Tracker R) : Prop where
  shape_eq : t'.shape = t.shape
  seed_eq : t'.seed = t.seed
  roots_eq : t'.roots = t.roots
  step_eq : t'.step = t.step
  passes_eq : t'.passes = t.passes

theorem SameEstimates.table_eq {t t' : Tracker R} (same : SameEstimates t t') : t'.table = t.table :=
  congrArg TwinBuffer.front same.roots_eq

variable [One R] [Add R] [Sub R] [Mul R] [Div R] [Neg R] [NatCast R] [OfScientific R] {t : Tracker R}
  {s : Shape} {seed : UInt32} {k : Nat}

/-- A tracker holds the estimates after some passes from a seed. -/
structure HasRefined (t : Tracker R) (s : Shape) (seed : UInt32) (k : Nat) : Prop where
  shape_eq : t.shape = s
  seed_eq : t.seed = seed
  table_eq : t.table = estimates s 0 seed k
  step_eq : t.step = stepAfter k
  passes_eq : t.passes = k

theorem hasRefined_restart (t : Tracker R) (size : t.table.size = t.shape.slots) :
    t.restart.HasRefined t.shape t.seed 0 where
  shape_eq := rfl
  seed_eq := rfl
  table_eq := t.workers.map_eq_ofFn size
  step_eq := rfl
  passes_eq := rfl

theorem hasRefined_new (viewport : Viewport R) (seed : UInt32) (s : Shape) (workers : Workers) :
    (new viewport seed s workers).HasRefined s seed 0 :=
  hasRefined_restart _ Array.size_replicate

namespace HasRefined

theorem size_table (h : t.HasRefined s seed k) : t.table.size = s.slots := by
  rw [h.table_eq, size_estimates]

theorem reseed (h : t.HasRefined s seed k) (seed' : UInt32) : (t.reseed seed').HasRefined s seed' 0 := by
  obtain rfl := h.shape_eq
  exact hasRefined_restart { t with seed := seed' } h.size_table

theorem restart (h : t.HasRefined s seed k) : t.restart.HasRefined s seed 0 := by
  obtain rfl := h.seed_eq
  exact h.reseed t.seed

theorem advance (h : t.HasRefined s seed k) : t.advance.HasRefined s seed (k + 1) where
  shape_eq := h.shape_eq
  seed_eq := h.seed_eq
  table_eq := by
    rw [estimates, ← h.table_eq, ← h.step_eq, ← h.shape_eq]
    exact t.workers.map_eq_ofFn (h.size_table.trans (by rw [h.shape_eq]))
  step_eq := by
    rw [stepAfter, ← h.step_eq]
    rfl
  passes_eq := congrArg (· + 1) h.passes_eq

end HasRefined

theorem HasRefined.congr {t' : Tracker R} (h : t.HasRefined s seed k) (same : SameEstimates t t') :
    t'.HasRefined s seed k where
  shape_eq := same.shape_eq.trans h.shape_eq
  seed_eq := same.seed_eq.trans h.seed_eq
  table_eq := same.table_eq.trans h.table_eq
  step_eq := same.step_eq.trans h.step_eq
  passes_eq := same.passes_eq.trans h.passes_eq

end Tracker

end Littlewood

/-! ## Engines -/

namespace Engine

open Littlewood

/-- Changes the tracker of an engine that has one. -/
def onTracker (change : Tracker Float → Tracker Float) : Engine → Engine
  | littlewood t => littlewood (change t)
  | e => e

/-- What a command makes of an engine. It stays as it is if there is no viewport to move to. -/
def obey (e : Engine) : Command → Engine
  | .advance => advance.left e
  | .reset => e.onTracker .restart
  | .reseed seed => e.onTracker (·.reseed seed)
  | .changeView => e.changeView
  | .setView center zoom => (setView center zoom).left e
  | .resize width height => (resize width height).left e
  | .setProven proven => e.onTracker ({ · with proven := proven })
  | .setAxes axes => e.onTracker ({ · with axes := axes })
  | .render _ _ => e
  | .employ workers => e.onTracker ({ · with workers := workers })

/-- An engine after a history. -/
def obeyAll (e : Engine) (history : List Command) : Engine :=
  history.foldl obey e

/-- A move takes a tracker to a viewport, if there is one, and nothing else of it changes. -/
theorem left_relocate_littlewood (t : Tracker Float) {put : Engine → Viewport Float → Engine}
    (hput : ∀ v, put (littlewood t) v = littlewood { t with viewport := v })
    (change : Viewport Float → Except (ViewError Float) (Viewport Float)) :
    ∃ t', (Move.relocate viewport put change).left (littlewood t) = littlewood t' ∧
      Tracker.SameEstimates t t' := by
  rw [Move.left_relocate]
  cases change (littlewood t).viewport with
  | error e => exact ⟨t, rfl, rfl, rfl, rfl, rfl, rfl⟩
  | ok v => exact ⟨{ t with viewport := v }, hput v, rfl, rfl, rfl, rfl, rfl⟩

/-- A command that neither starts over nor makes a pass leaves the estimates as they are. -/
theorem sameEstimates_obey (t : Tracker Float) {c : Command} (stays : c.restarts = false)
    (rests : c.isAdvance = false) :
    ∃ t', (littlewood t).obey c = littlewood t' ∧ Tracker.SameEstimates t t' := by
  cases c with
  | advance => cases rests
  | reset => cases stays
  | reseed seed => cases stays
  | changeView => exact ⟨t, rfl, rfl, rfl, rfl, rfl, rfl⟩
  | setView center zoom => exact left_relocate_littlewood t (fun _ => rfl) _
  | resize width height => exact left_relocate_littlewood t (fun _ => rfl) _
  | setProven proven => exact ⟨_, rfl, rfl, rfl, rfl, rfl, rfl⟩
  | setAxes axes => exact ⟨_, rfl, rfl, rfl, rfl, rfl, rfl⟩
  | render scheme target => exact ⟨t, rfl, rfl, rfl, rfl, rfl, rfl⟩
  | employ workers => exact ⟨_, rfl, rfl, rfl, rfl, rfl, rfl⟩

/-- What a command makes of a tracker has the passes that the command counts, from the seed it sets. -/
theorem hasRefined_obey {t : Tracker Float} {s : Shape} {seed : UInt32} {k : Nat}
    (h : t.HasRefined s seed k) (c : Command) :
    ∃ t', (littlewood t).obey c = littlewood t' ∧ t'.HasRefined s (c.seed?.getD seed) (c.count k) := by
  cases c with
  | advance => exact ⟨t.advance, rfl, h.advance⟩
  | reset => exact ⟨t.restart, rfl, h.restart⟩
  | reseed seed' => exact ⟨t.reseed seed', rfl, h.reseed seed'⟩
  | changeView | setView _ _ | resize _ _ | setProven _ | setAxes _ | render _ _ | employ _ =>
    exact (sameEstimates_obey t (by rfl) (by rfl)).imp fun t' obeyed => ⟨obeyed.1, h.congr obeyed.2⟩

theorem hasRefined_obeyAll {t : Tracker Float} {s : Shape} {seed : UInt32} (h : t.HasRefined s seed 0)
    (history : List Command) :
    ∃ t', (littlewood t).obeyAll history = littlewood t' ∧
      t'.HasRefined s (lastSeed seed history) (passes history) := by
  induction history using List.reverseRec with
  | nil => exact ⟨t, rfl, h⟩
  | append_singleton history c ih =>
    obtain ⟨before, hbefore, refined⟩ := ih
    obtain ⟨after, hafter, refined⟩ := hasRefined_obey refined c
    refine ⟨after, ?_, ?_⟩
    · rw [obeyAll] at hbefore ⊢
      rw [List.foldl_append, hbefore]
      exact hafter
    · rw [lastSeed, List.foldl_append, passes, countSince_append]
      exact refined

/-- After any history of a tracker, in which moves may have failed, the table has all its slots, and it is
the one that as many passes over whole tables as there were since the last start make of the seed set last,
whatever would be read outside the table; the number of passes and the step are the ones that go with it.
Moves, drawing and what is drawn change none of them. -/
theorem estimates_obeyAll (viewport : Viewport Float) (seed : UInt32) (shape : Shape) (workers : Workers)
    (history : List Command) (room : shape.maxDegree ≤ 30) :
    ∃ t, (littlewood (.new viewport seed shape workers)).obeyAll history = littlewood t ∧
      t.passes = passes history ∧ t.step = stepAfter (passes history) ∧ t.table.size = shape.slots ∧
      (∀ missing, t.table = estimates shape missing (lastSeed seed history) (passes history)) ∧
      ∀ c : Command, c.restarts = false → c.isAdvance = false →
        ∃ t', (littlewood t).obey c = littlewood t' ∧ t'.table = t.table ∧ t'.step = t.step ∧
          t'.passes = t.passes := by
  obtain ⟨t, obeyed, refined⟩ :=
    hasRefined_obeyAll (Tracker.hasRefined_new viewport seed shape workers) history
  refine ⟨t, obeyed, refined.passes_eq, refined.step_eq, refined.size_table, ?_, ?_⟩
  · intro missing
    rw [refined.table_eq]
    exact estimates_missing room 0 missing _ _
  · intro c stays rests
    obtain ⟨t', hobey, same⟩ := sameEstimates_obey t stays rests
    exact ⟨t', hobey, same.table_eq, same.step_eq, same.passes_eq⟩

/-- A history with passes before and after a new seed, and with moves that fail. -/
theorem estimates_obeyAll_reseeded :
    let viewport : Viewport Float :=
      ⟨5, 4, 0, 2, by decide, by decide, by decide +kernel, by decide +kernel⟩
    let shape : Shape := ⟨4, 16⟩
    let history : List Command := [.advance, .resize 0 5, .advance, .reseed 7, .advance, .setView 0 0,
      .employ (.ofNat 3), .setProven true, .advance]
    shape.maxDegree ≤ 30 ∧
      ∃ t, (littlewood (.new viewport 42 shape (.ofNat 2))).obeyAll history = littlewood t ∧
        t.passes = 2 ∧ t.step = 1 * 0.999 * 0.999 ∧ t.table.size = 128 ∧
          t.table = estimates shape 0 7 2 := by
  intro viewport shape history
  have room : shape.maxDegree ≤ 30 := by decide
  obtain ⟨t, obeyed, passes, step, size, table, -⟩ :=
    estimates_obeyAll viewport 42 shape (.ofNat 2) history room
  exact ⟨room, t, obeyed, passes, step, size, table 0⟩

end Engine

end Argand
