import Argand.Engine.Basic
import Argand.Proofs.Move
import Argand.Proofs.Viewport

/-!
# Requests that are refused

Whatever an engine can be asked for is a `Request`, which is a move of the engine (`Engine.respond`). Only two kinds
can be refused, those for another viewport, and whether one is depends on the request alone : a rectangle without
pixels (`Engine.resize_eq_error`) or an extent that is not a positive number (`Engine.setView_eq_error`). A pass of
work is never refused, but it may fail for want of room in a counter. The answers to a history of requests
(`Engine.answers`) are refusals, failures, reports of all that can be seen of the engine, and pictures.

A request that fails leaves nothing behind (`Engine.atomic_respond`). So a history from which all requests that are
refused are taken out has the other answers of the history, each the same, and comes to the same engine
(`Engine.answers_possible`).
-/

namespace Argand

/-! ## Requests -/

/-- A change that one kind of engine or another offers. -/
inductive Adjustment where
  /-- Another start for every orbit of an escape. -/
  | seed (seed : Point Float)
  /-- Another number of updates for every orbit of an escape. -/
  | budget (budget : Nat)
  /-- Another parameter for orbits in batches, which start over. -/
  | parameter (parameter : Option (Point Float))
  /-- Orbits in batches or estimates of roots start over. -/
  | restart
  /-- Estimates of roots start over from another seed. -/
  | reseed (seed : UInt32)
  | smooth (smooth : Bool)
  | marks (marks : Bool)
  | axes (axes : Bool)
  | proven (proven : Bool)

/-- What an engine can be asked for. -/
inductive Request where
  | advance
  | changeView
  | resize (width height : Nat)
  | setView (center : Point Float) (zoom : Float)
  | render (scheme : Scheme Float32) (target : Picture)
  | employ (workers : Workers)
  | adjust (adjustment : Adjustment)

/-- Whether there is a viewport as a request wants it, if it wants one. -/
def Request.possible : Request → Bool
  | resize width height => 0 < width && 0 < height
  | setView _ zoom => Finiteness.isFinite zoom && 0 < zoom
  | _ => true

namespace Engine

/-- Makes a change in an engine that offers it. The others stay as they are. -/
def adjust : Engine → Adjustment → Engine
  | escapeTime e, .seed seed => escapeTime { e with seed := seed }
  | escapeTime e, .budget budget => escapeTime { e with budget := budget }
  | progressive p, .parameter parameter => progressive (p.setParameter parameter)
  | progressive p, .restart => progressive p.restart
  | newton b, .smooth smooth => newton { b with smooth := smooth }
  | newton b, .marks marks => newton { b with marks := marks }
  | newton b, .axes axes => newton { b with axes := axes }
  | littlewood t, .restart => littlewood t.restart
  | littlewood t, .reseed seed => littlewood (t.reseed seed)
  | littlewood t, .proven proven => littlewood { t with proven := proven }
  | littlewood t, .axes axes => littlewood { t with axes := axes }
  | e, _ => e

/-- Leaves the work from now on to other workers. -/
def employ : Engine → Workers → Engine
  | escapeTime e, workers => escapeTime { e with workers := workers }
  | progressive p, workers => progressive (p.employ workers)
  | newton b, workers => newton { b with workers := workers }
  | littlewood t, workers => littlewood { t with workers := workers }

/-- What a request does to an engine. Drawing makes a picture and does nothing to the engine. -/
def respond : Request → Move Float Engine Unit
  | .advance => advance
  | .changeView => modify changeView
  | .resize width height => resize width height
  | .setView center zoom => setView center zoom
  | .render _ _ => pure ()
  | .employ workers => modify (·.employ workers)
  | .adjust adjustment => modify (·.adjust adjustment)

/-- The engine after a request. -/
def after (e : Engine) (r : Request) : Engine :=
  (respond r).left e

/-- The engine after a history of requests. -/
def afterAll (e : Engine) (history : List Request) : Engine :=
  history.foldl after e

/-! ## Answers -/

/-- What can be seen of an engine. -/
inductive Report where
  | escapeTime (viewport : Viewport Float) (counts : Array (Option Nat))
  | progressive (viewport : Viewport Float) (parameter : Option (Point Float))
    (cells : Array (Cell Float)) (counts : Array Int32) (executed : Nat)
  | newton (viewport : Viewport Float) (basins : Array (Basin Float))
  | littlewood (viewport : Viewport Float) (shape : Littlewood.Shape) (table : Array (Point Float))
    (step : Float) (passes : Nat)

def report : Engine → Report
  | escapeTime e => .escapeTime e.viewport e.counts
  | progressive p => .progressive p.viewport p.parameter p.cells p.counts p.executed
  | newton b => .newton b.viewport b.basins
  | littlewood t => .littlewood t.viewport t.shape t.table t.step t.passes

/-- What comes back from a request. -/
inductive Answer where
  | refused (error : ViewError Float)
  /-- There is no room in a counter. -/
  | overflowed
  | drawn (picture : Picture)
  | done (report : Report)

/-- Whether an answer is a refusal. -/
def Answer.isRefusal : Answer → Bool
  | refused _ => true
  | _ => false

/-- The answer to a request. -/
def answer (e : Engine) (r : Request) : Answer :=
  match respond r e, r with
  | .error (.view error) _, _ => .refused error
  | .error .overflow _, _ => .overflowed
  | .ok _ e', .render scheme target => .drawn (e'.render scheme target)
  | .ok _ e', _ => .done e'.report

/-- The answers to a history of requests. -/
def answers (e : Engine) : List Request → List Answer
  | [] => []
  | r :: history => e.answer r :: (e.after r).answers history

/-! ## Refusals -/

theorem resize_eq_error (e : Engine) {width height : Nat} {error : MoveError Float} {e' : Engine} :
    resize width height e = .error error e' ↔
      (width = 0 ∨ height = 0) ∧ error = .view (.emptyViewport width height) ∧ e' = e := by
  rw [resize, Move.relocate_eq_error]
  simp [Viewport.resize_eq_error, and_assoc]

theorem setView_eq_error (e : Engine) {center : Point Float} {zoom : Float} {error : MoveError Float} {e' : Engine} :
    setView center zoom e = .error error e' ↔
      ¬(Finiteness.isFinite zoom = true ∧ 0 < zoom) ∧ error = .view (.badZoom zoom) ∧ e' = e := by
  rw [setView, Move.relocate_eq_error]
  simp [Viewport.setView_eq_error, and_assoc]

/-- A request that fails leaves the engine as it was. -/
theorem atomic_respond (r : Request) : (respond r).Atomic := by
  cases r with
  | advance => exact Move.atomic_attempt _
  | resize _ _ =>
    rw [respond, resize]
    exact Move.atomic_relocate
  | setView _ _ =>
    rw [respond, setView]
    exact Move.atomic_relocate
  | changeView | employ _ | adjust _ => exact Move.atomic_modify _
  | render _ _ => exact fun _ _ _ failed => nomatch failed

/-- A request is refused exactly if it wants a viewport that does not exist. -/
theorem possible_eq_false (e : Engine) (r : Request) :
    r.possible = false ↔ ∃ error, respond r e = .error (.view error) e := by
  cases r with
  | resize width height => simp [respond, resize_eq_error, Request.possible, imp_iff_not_or, Nat.pos_iff_ne_zero]
  | setView center zoom => simp [respond, setView_eq_error, Request.possible]
  | advance => simp [respond, advance, Move.attempt_eq_error, Request.possible]
  | changeView | employ _ | adjust _ | render _ _ => exact iff_of_false (by rintro ⟨⟩) (by rintro ⟨_, ⟨⟩⟩)

theorem after_of_not_possible {e : Engine} {r : Request} (h : r.possible = false) :
    e.after r = e := by
  obtain ⟨error, refused⟩ := (e.possible_eq_false r).mp h
  rw [after, Move.left, refused]

theorem isRefusal_answer (e : Engine) (r : Request) : (e.answer r).isRefusal = !r.possible := by
  cases possible : r.possible with
  | false =>
    obtain ⟨error, refused⟩ := (e.possible_eq_false r).mp possible
    simp only [answer, refused]
    rfl
  | true =>
    cases outcome : respond r e with
    | ok _ e' => cases r <;> simp only [answer, outcome] <;> rfl
    | error error e' =>
      cases error with
      | overflow =>
        simp only [answer, outcome]
        rfl
      | view error =>
        obtain rfl := atomic_respond r _ _ _ outcome
        rw [(possible_eq_false _ r).mpr ⟨error, outcome⟩] at possible
        cases possible

/-- A history without the requests that are refused comes to the same engine. -/
theorem afterAll_filter_possible (e : Engine) (history : List Request) :
    e.afterAll (history.filter Request.possible) = e.afterAll history := by
  induction history generalizing e with
  | nil => rfl
  | cons r history ih =>
    cases h : r.possible with
    | true =>
      rw [List.filter_cons_of_pos h]
      exact ih (e.after r)
    | false =>
      rw [List.filter_cons_of_neg (by simp [h]), ih]
      show e.afterAll history = (e.after r).afterAll history
      rw [after_of_not_possible h]

/-- A history without the requests that are refused has the answers that are no refusals. -/
theorem answers_filter_possible (e : Engine) (history : List Request) :
    e.answers (history.filter Request.possible) =
      (e.answers history).filter (!·.isRefusal) := by
  induction history generalizing e with
  | nil => rfl
  | cons r history ih =>
    rw [List.filter_cons, answers, List.filter_cons, isRefusal_answer, Bool.not_not]
    cases h : r.possible with
    | true =>
      show answers e (r :: _) = _ :: _
      rw [answers, ih]
    | false =>
      rw [after_of_not_possible h]
      exact ih e

/-- Requests that are refused leave no trace : without them a history has the other answers, each the
same, and comes to the same engine. After any history a request that fails leaves the engine as it was, and an engine
refuses exactly the rectangles without pixels and the extents that are not positive numbers. Its viewport has pixels
and such an extent. -/
theorem answers_possible (e : Engine) (history : List Request) :
    e.answers (history.filter Request.possible) = (e.answers history).filter (!·.isRefusal) ∧
      e.afterAll (history.filter Request.possible) = e.afterAll history ∧
      (∀ r error e', respond r (e.afterAll history) = .error error e' → e' = e.afterAll history) ∧
      (∀ width height error e', resize width height (e.afterAll history) = .error error e' ↔
        (width = 0 ∨ height = 0) ∧ error = .view (.emptyViewport width height) ∧ e' = e.afterAll history) ∧
      (∀ center zoom error e', setView center zoom (e.afterAll history) = .error error e' ↔
        ¬(Finiteness.isFinite zoom = true ∧ 0 < zoom) ∧ error = .view (.badZoom zoom) ∧
          e' = e.afterAll history) ∧
      0 < (e.afterAll history).viewport.width ∧ 0 < (e.afterAll history).viewport.height ∧
      Finiteness.isFinite (e.afterAll history).viewport.zoom = true ∧
      0 < (e.afterAll history).viewport.zoom :=
  ⟨e.answers_filter_possible history, e.afterAll_filter_possible history,
    fun r _ _ => atomic_respond r _ _ _, fun _ _ _ _ => resize_eq_error _, fun _ _ _ _ => setView_eq_error _,
    Viewport.width_pos _, Viewport.height_pos _, Viewport.zoom_finite _, Viewport.zoom_pos _⟩

end Engine

end Argand
