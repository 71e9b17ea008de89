import Argand.Palette.Named
import Argand.Proofs.Engine.Requests
import Argand.Proofs.Littlewood.Dots
import Argand.Proofs.Orbit.History

/-!
# Pictures of engines

A picture of an engine shows the engine and nothing of what was on the picture before. Every engine paints
all pixels of its viewport, each with a shade that is known from the point of the pixel (`Engine.shadeOf?`),
and then puts the spots of its dots and axes on top, if it has any (`Engine.overlay`).

The shades are computed from offsets and from what an engine keeps (`Engine.shadeAt`). That they are those
of the points takes an invariant, since cells are kept from pass to pass : they belong to the viewport, the
parameter and the updates that the engine reports (`Engine.Current`). Requests keep it
(`Engine.Current.after`), so every engine that can be reached has it, and its pictures are as
`Engine.render_of_reachable` says.
-/

namespace Argand

namespace Engine

/-! ## Engines that can be reached -/

/-- An engine that has not been asked for anything. Escapes and basins keep nothing from request to request,
so they may be set up in any way. -/
inductive Fresh : Engine → Prop
  | escapeTime (e : EscapeTime Float) : Fresh (.escapeTime e)
  | progressive (viewport : Viewport Float) (parameter : Option (Point Float)) (workers : Workers) :
      Fresh (.progressive (.new viewport parameter workers))
  | newton (b : NewtonBasins Float) : Fresh (.newton b)
  | littlewood (viewport : Viewport Float) (seed : UInt32) (shape : Littlewood.Shape)
      (workers : Workers) : Fresh (.littlewood (.new viewport seed shape workers))

/-- An engine is what some history of requests makes of a fresh one. -/
def Reachable (e : Engine) : Prop :=
  ∃ (fresh : Engine) (history : List Request), fresh.Fresh ∧ fresh.afterAll history = e

/-- The cells of an engine, if it keeps any, are what some batches make of fresh ones. -/
def Current : Engine → Prop
  | progressive p => ∃ k, p.HasRun k
  | _ => True

theorem current_lookAt (e : Engine) (v : Viewport Float) : (e.lookAt v).Current := by
  cases e with
  | progressive p => exact ⟨0, p.hasRun_lookAt v⟩
  | escapeTime _ | newton _ | littlewood _ => trivial

theorem current_rebuild (e : Engine) (v : Viewport Float) : (e.rebuild v).Current := by
  cases e with
  | progressive p => exact ⟨0, Progressive.hasRun_new ..⟩
  | escapeTime _ | newton _ | littlewood _ => trivial

theorem current_changeView (e : Engine) : e.changeView.Current := by
  cases e with
  | progressive p => exact ⟨0, Progressive.hasRun_start _ _ _ _ p.size_state⟩
  | escapeTime _ | newton _ | littlewood _ => trivial

namespace Current

variable {e : Engine}

theorem advance (h : e.Current) : (Engine.advance.left e).Current := by
  rw [Engine.advance, Move.left_attempt]
  cases e with
  | progressive p =>
    obtain ⟨k, run⟩ := h
    rw [advance?]
    cases next : p.advance? with
    | none => exact ⟨k, run⟩
    | some q => exact ⟨k + 1, run.advance? next⟩
  | escapeTime _ | newton _ | littlewood _ => trivial

theorem employ (h : e.Current) (workers : Workers) : (e.employ workers).Current := by
  cases e with
  | progressive p => exact h.imp fun _ run => run.employ workers
  | escapeTime _ | newton _ | littlewood _ => trivial

theorem adjust (h : e.Current) (a : Adjustment) : (e.adjust a).Current := by
  cases e with
  | progressive p =>
    cases a with
    | parameter _ | restart => exact ⟨0, Progressive.hasRun_start _ _ _ _ p.size_state⟩
    | seed _ | budget _ | reseed _ | smooth _ | marks _ | axes _ | proven _ => exact h
  | escapeTime _ | newton _ | littlewood _ => cases a <;> trivial

theorem after (h : e.Current) (r : Request) : (e.after r).Current := by
  cases r with
  | resize width height =>
    rw [Engine.after, respond, resize, Move.left_relocate]
    cases e.viewport.resize width height with
    | ok v => exact e.current_rebuild v
    | error _ => exact h
  | setView center zoom =>
    rw [Engine.after, respond, setView, Move.left_relocate]
    cases e.viewport.setView center zoom with
    | ok v => exact e.current_lookAt v
    | error _ => exact h
  | advance => exact h.advance
  | changeView => exact e.current_changeView
  | render scheme target => exact h
  | employ workers => exact h.employ workers
  | adjust a => exact h.adjust a

theorem afterAll (history : List Request) : ∀ {e : Engine}, e.Current → (e.afterAll history).Current := by
  induction history with
  | nil => exact fun h => h
  | cons r history ih => exact fun h => ih (h.after r)

end Current

theorem Fresh.current {e : Engine} (h : e.Fresh) : e.Current := by
  cases h with
  | progressive viewport parameter workers => exact ⟨0, Progressive.hasRun_new ..⟩
  | escapeTime _ | newton _ | littlewood _ _ _ _ => trivial

theorem Reachable.current {e : Engine} (h : e.Reachable) : e.Current := by
  obtain ⟨fresh, history, hfresh, rfl⟩ := h
  exact hfresh.current.afterAll history

/-! ## Shades -/

/-- The shade of a pixel by its offset, from what an engine keeps or computes for all pixels. -/
def shadeAt (e : Engine) (scheme : Scheme Float32) (offset : Nat) : Color Float32 :=
  match e with
  | escapeTime e => e.shade scheme (scheme.sampled Float) (e.counts.getD offset none)
  | progressive p =>
    p.shade scheme (scheme.sampled Float) (p.cells.getD offset (.start 0)).counter
  | newton b => b.shade scheme (b.viewport.pointAtOffset offset) (b.basins.getD offset ⟨0, 0, none⟩)
  | littlewood t => t.backdrop scheme (t.viewport.pointAtOffset offset)

/-- The shade of a point. A cell is granted as many updates as the engine has, and there is no shade if it has no
room for them. -/
def shadeOf? (e : Engine) (scheme : Scheme Float32) (point : Point Float) : Option (Color Float32) :=
  match e with
  | escapeTime e => some (e.shade scheme (scheme.sampled Float)
      (escapeCount (fun z => e.map.1.map₂ e.map.2 z point) e.budget e.seed))
  | progressive p =>
    ((Cell.start point).resume? (p.parameter.getD point) p.executed).map fun cell =>
      p.shade scheme (scheme.sampled Float) cell.counter
  | newton b => some (b.shade scheme point (polish (b.f.1.map b.f.2) (b.df.1.map b.df.2) point))
  | littlewood t => some (t.backdrop scheme point)

/-- What an engine keeps for an offset is what it has found for the point of the offset. -/
theorem Current.shadeOf?_eq {e : Engine} (h : e.Current) (scheme : Scheme Float32) {offset : Nat}
    (ho : offset < e.viewport.size) :
    e.shadeOf? scheme (e.viewport.pointAtOffset offset) = some (e.shadeAt scheme offset) := by
  cases e with
  | escapeTime e =>
    have count : e.counts[offset]? = some _ := e.workers.getElem?_map ho
    rw [shadeAt, Array.getD_eq_getD_getElem?, count, Option.getD_some]
    rfl
  | progressive p =>
    obtain ⟨k, run⟩ := h
    obtain ⟨cell, granted, found⟩ := run.exists_cell ho
    rw [← run.executed] at granted
    rw [shadeAt, Array.getD_eq_getD_getElem?, found, Option.getD_some]
    exact congrArg (Option.map _) granted
  | newton b =>
    have basin : b.basins[offset]? = some _ := b.workers.getElem?_map ho
    rw [shadeAt, Array.getD_eq_getD_getElem?, basin, Option.getD_some]
    rfl
  | littlewood t => rfl

/-! ## Dots and axes -/

/-- What is drawn over the shades. -/
def overlay (e : Engine) (scheme : Scheme Float32) : List Spot :=
  match e with
  | escapeTime _ | progressive _ => []
  | newton b =>
    if b.axes then
      b.viewport.axesSpots scheme.axes.toBytes b.viewport.width b.viewport.height
    else []
  | littlewood t =>
    t.rootSpots scheme t.viewport.width t.viewport.height ++
      if t.axes then
        t.viewport.axesSpots scheme.axes.toBytes t.viewport.width t.viewport.height
      else []

section Drawing

variable {e : Engine} (scheme : Scheme Float32) (w : Workers) (target : Picture)

/-- An engine paints the shades of all pixels and puts its spots on them. -/
theorem render_eq_putAll (width_lt : e.viewport.width < UInt32.size)
    (height_lt : e.viewport.height < UInt32.size) :
    e.render scheme target =
      (e.viewport.paint w (e.shadeAt scheme) target).putAll (e.overlay scheme) := by
  have width : e.viewport.width.toUInt32.toNat = e.viewport.width := UInt32.toNat_ofNat_of_lt' width_lt
  have height : e.viewport.height.toUInt32.toNat = e.viewport.height := UInt32.toNat_ofNat_of_lt' height_lt
  let painted := e.viewport.paint w (e.shadeAt scheme) target
  have painted_width : painted.width = e.viewport.width := by rw [Viewport.width_paint, width]
  have painted_height : painted.height = e.viewport.height := by rw [Viewport.height_paint, height]
  cases e with
  | escapeTime e => exact e.viewport.paint_congr e.workers w target fun _ _ => rfl
  | progressive p => exact p.viewport.paint_congr p.workers w target fun _ _ => rfl
  | newton b =>
    have axes := (b.viewport.puts_drawAxes scheme.axes.toBytes).ite fun _ _ => b.axes
    have drawn := axes painted
    rw [painted_width, painted_height] at drawn
    have shades : b.viewport.paint b.workers (shadeAt (newton b) scheme) target = painted :=
      b.viewport.paint_congr b.workers w target fun _ _ => rfl
    calc b.render scheme target
        = if b.axes then b.viewport.drawAxes scheme.axes.toBytes painted else painted := by
          rw [← shades]
          rfl
      _ = painted.putAll _ := drawn
  | littlewood t =>
    have axes := (t.viewport.puts_drawAxes scheme.axes.toBytes).ite fun _ _ => t.axes
    have drawn := (t.puts_drawRoots scheme).comp axes painted
    rw [painted_width, painted_height] at drawn
    rw [render, Littlewood.Tracker.render, t.drawBackdrop_eq_paint w]
    exact drawn

end Drawing

/-! ## Whoever draws -/

@[simp] theorem viewport_employ (e : Engine) (workers : Workers) :
    (e.employ workers).viewport = e.viewport := by
  cases e <;> rfl

theorem overlay_employ (e : Engine) (workers : Workers) (scheme : Scheme Float32) :
    (e.employ workers).overlay scheme = e.overlay scheme := by
  cases e <;> rfl

theorem shadeOf?_employ (e : Engine) (workers : Workers) (scheme : Scheme Float32) (point : Point Float) :
    (e.employ workers).shadeOf? scheme point = e.shadeOf? scheme point := by
  cases e <;> rfl

/-- Other workers draw the same picture, and so they do on another one. -/
theorem Current.render_employ {e : Engine} (h : e.Current) (width_lt : e.viewport.width < UInt32.size)
    (height_lt : e.viewport.height < UInt32.size) (workers : Workers) (scheme : Scheme Float32)
    (target target' : Picture) : (e.employ workers).render scheme target' = e.render scheme target := by
  have shades : ∀ offset < e.viewport.size,
      (e.employ workers).shadeAt scheme offset = e.shadeAt scheme offset := by
    intro offset ho
    apply Option.some.inj
    rw [← h.shadeOf?_eq scheme ho, ← (h.employ workers).shadeOf?_eq scheme (by simpa using ho), shadeOf?_employ,
      viewport_employ]
  calc (e.employ workers).render scheme target'
      = (e.viewport.paint workers ((e.employ workers).shadeAt scheme) target').putAll (e.overlay scheme) := by
        rw [render_eq_putAll scheme workers target' (by simpa using width_lt) (by simpa using height_lt),
          viewport_employ, overlay_employ]
    _ = (e.viewport.paint workers (e.shadeAt scheme) target).putAll (e.overlay scheme) := by
        rw [e.viewport.paint_congr workers workers target' shades,
          e.viewport.paint_target workers _ target' target]
    _ = e.render scheme target := (render_eq_putAll scheme workers target width_lt height_lt).symm

/-- Every picture of an engine that can be reached shows the engine and nothing of the picture it is drawn
on, whoever draws it. It has the sides of the viewport, if those have room in words of thirty-two bits, and
where no spot of dots or axes is, a pixel has the shade of its offset, which is the shade of its point.
Drawing leaves the engine as it is, so that drawing again gives the same picture. -/
theorem render_of_reachable {e : Engine} (reachable : e.Reachable)
    (width_lt : e.viewport.width < UInt32.size) (height_lt : e.viewport.height < UInt32.size)
    (scheme : Scheme Float32) (target : Picture) :
    let v := e.viewport
    let picture := e.render scheme target
    (∀ (workers : Workers) (target' : Picture), (e.employ workers).render scheme target' = picture) ∧
      (∀ target' : Picture, e.render scheme target' = picture) ∧
      picture.width = v.width ∧ picture.height = v.height ∧
      (∀ x < v.width, ∀ y < v.height, (∀ spot ∈ e.overlay scheme, spot.pixel ≠ ⟨x, y⟩) →
        picture.get? x y = some (e.shadeAt scheme (y * v.width + x)).toBytes) ∧
      (∀ x < v.width, ∀ y < v.height,
        e.shadeOf? scheme (v.pointAt ⟨x, y⟩) = some (e.shadeAt scheme (y * v.width + x))) ∧
      e.after (.render scheme target) = e ∧
      (e.after (.render scheme target)).render scheme picture = picture := by
  intro v picture
  have current := reachable.current
  have drawn (target : Picture) :
      e.render scheme target = (v.paint (.ofNat 1) (e.shadeAt scheme) target).putAll (e.overlay scheme) :=
    render_eq_putAll scheme (.ofNat 1) target width_lt height_lt
  have same (target' : Picture) : e.render scheme target' = picture := by
    rw [drawn target', v.paint_target _ _ target' target, ← drawn target]
  refine ⟨fun workers target' => ?_, same, ?_, ?_, ?_, ?_, rfl, same picture⟩
  · exact current.render_employ width_lt height_lt workers scheme target target'
  · show (e.render scheme target).width = v.width
    rw [drawn, Picture.width_putAll, Viewport.width_paint]
    exact UInt32.toNat_ofNat_of_lt' width_lt
  · show (e.render scheme target).height = v.height
    rw [drawn, Picture.height_putAll, Viewport.height_paint]
    exact UInt32.toNat_ofNat_of_lt' height_lt
  · intro x hx y hy free
    show (e.render scheme target).get? x y = _
    rw [drawn, Picture.get?_putAll_of_forall_ne _ free]
    exact v.get?_paint _ _ target width_lt height_lt hx hy
  · intro x hx y hy
    rw [← current.shadeOf?_eq scheme (v.offset_lt hx hy), Viewport.pointAtOffset, v.pixelAt_offset hx]

/-- A tracker that has been moved to where none of its roots is in view. -/
theorem render_of_reachable_moved :
    let viewport : Viewport Float :=
      ⟨6, 9, 0, 8, by decide, by decide, by decide +kernel, by decide +kernel⟩
    let e := (littlewood (.new viewport 42 ⟨2, 16⟩ (.ofNat 2))).afterAll [.advance, .resize 0 5,
      .resize 5 4, .adjust (.axes true), .setView ⟨10, 10⟩ 4, .adjust (.axes false), .advance]
    let picture := e.render Scheme.gray (.black 7 1)
    e.Reachable ∧ e.viewport.width < UInt32.size ∧ e.viewport.height < UInt32.size ∧ picture.width = 5 ∧
      picture.height = 4 ∧
      ∃ shade, e.shadeOf? Scheme.gray (e.viewport.pointAt ⟨1, 3⟩) = some shade ∧
        picture.get? 1 3 = some shade.toBytes := by
  intro viewport e picture
  have reachable : e.Reachable := ⟨_, _, .littlewood viewport 42 ⟨2, 16⟩ (.ofNat 2), rfl⟩
  have width : e.viewport.width = 5 := by decide +kernel
  have height : e.viewport.height = 4 := by decide +kernel
  have free : ∀ spot ∈ e.overlay Scheme.gray, spot.pixel ≠ ⟨1, 3⟩ := by decide +kernel
  have width_lt : e.viewport.width < UInt32.size := by rw [width]; decide
  have height_lt : e.viewport.height < UInt32.size := by rw [height]; decide
  obtain ⟨-, -, picture_width, picture_height, shaded, shades, -⟩ :=
    render_of_reachable reachable width_lt height_lt Scheme.gray (.black 7 1)
  have hx : 1 < e.viewport.width := by rw [width]; decide
  have hy : 3 < e.viewport.height := by rw [height]; decide
  exact ⟨reachable, width_lt, height_lt, picture_width.trans width, picture_height.trans height, _,
    shades 1 hx 3 hy, shaded 1 hx 3 hy free⟩

end Engine

end Argand
