import Argand.Engine.Mode
import Argand.Littlewood.Tracker
import Argand.Move
import Argand.Newton.Basins
import Argand.Orbit.Progressive

/-!
# Engines

An `Engine` is one of the ways to look at the plane, set up on a viewport with doubles for reals.
Whatever the way, an engine can be moved to another viewport (`Engine.resize`, `Engine.setView`),
which starts it over, be given a pass of work (`Engine.advance`), and be drawn (`Engine.render`). The
first three are moves, which give the engine back even where they fail : for want of a viewport, or
because a counter overflows. `Engine.create` sets an engine up from a mode and `Settings`.
-/

namespace Argand

/-- An engine on a viewport. -/
inductive Engine where
  | escapeTime (e : EscapeTime Float)
  | progressive (p : Progressive Float)
  | newton (b : NewtonBasins Float)
  | littlewood (t : Littlewood.Tracker Float)

namespace Engine

/-- What an engine does. -/
def name : Engine → String
  | escapeTime _ => "escape time"
  | progressive p => if p.parameter.isSome then "julia" else "mandelbrot"
  | newton _ => "newton"
  | littlewood _ => "littlewood"

/-- The viewport of an engine. -/
def viewport : Engine → Viewport Float
  | escapeTime e => e.viewport
  | progressive p => p.viewport
  | newton b => b.viewport
  | littlewood t => t.viewport

/-- An engine on another viewport. Orbits in batches start over there; the other engines keep nothing
that depends on the viewport. -/
def lookAt : Engine → Viewport Float → Engine
  | escapeTime e, v => escapeTime { e with viewport := v }
  | progressive p, v => progressive (p.lookAt v)
  | newton b, v => newton { b with viewport := v }
  | littlewood t, v => littlewood { t with viewport := v }

/-- An engine on another viewport, in new buffers if they depend on the viewport. -/
def rebuild : Engine → Viewport Float → Engine
  | progressive p, v => progressive (p.rebuild v)
  | e, v => e.lookAt v

/-- Moves an engine to a rectangle of other sides. -/
def resize (width height : Nat) : Move Float Engine Unit :=
  .relocate viewport rebuild (·.resize width height)

/-- Moves an engine to another window of the plane. -/
def setView (center : Point Float) (zoom : Float) : Move Float Engine Unit :=
  .relocate viewport lookAt (·.setView center zoom)

/-- Starts an engine over where it is, as far as what it keeps depends on the viewport. -/
def changeView : Engine → Engine
  | progressive p => progressive p.restart
  | e => e

/-- An engine after a pass of work, if it takes any. -/
def advance? : Engine → Option Engine
  | progressive p => p.advance?.map progressive
  | littlewood t => some (littlewood t.advance)
  | e => some e

/-- Gives an engine a pass of work. -/
def advance : Move Float Engine Unit :=
  .attempt advance?

/-- Gives an engine a number of passes of work. If one of them fails the engine keeps those before. -/
def advanceBy : Nat → Move Float Engine Unit
  | 0 => pure ()
  | n + 1 => do
    advance
    advanceBy n

/-- Draws what an engine has found so far. -/
def render : Engine → Scheme Float32 → Picture → Picture
  | escapeTime e => e.render
  | progressive p => p.render
  | newton b => b.render
  | littlewood t => t.render

/-! ## Setting up -/

/-- What an engine is to do, as far as its mode asks for it. -/
structure Settings where
  /-- The map of an escape, or the function whose basins are wanted. -/
  function : String
  /-- The derivative of the function whose basins are wanted. -/
  derivative : String
  /-- The start of every orbit of an escape. -/
  seed : Point Float
  /-- The parameter of a Julia set. -/
  julia : Point Float
  /-- What the first estimates of roots depend on. -/
  runSeed : UInt32
  smooth : Bool
  marks : Bool
  axes : Bool
  proven : Bool
  workers : Workers

/-- The settings where nothing is asked for. -/
def Settings.usual (workers : Workers) : Settings where
  function := "z*z + c"
  derivative := "2z"
  seed := 0
  julia := ⟨-0.8, 0.156⟩
  runSeed := 0
  smooth := false
  marks := false
  axes := false
  proven := false
  workers := workers

/-- Sets up the engine of a mode. -/
def create (mode : Mode) (viewport : Viewport Float) (s : Settings) :
    Except CompileError Engine :=
  match mode with
  | .escape => do
    let kernel ← Kernel.iteration s.function
    let e ← EscapeTime.ofKernel viewport kernel s.workers
    .ok (.escapeTime { e with seed := s.seed })
  | .mandelbrot => .ok (.progressive (.new viewport none s.workers))
  | .julia => .ok (.progressive (.new viewport (some s.julia) s.workers))
  | .newton => do
    let kernel ← Kernel.newton s.function s.derivative
    let b ← NewtonBasins.ofKernel viewport kernel s.workers
    .ok (.newton { b with smooth := s.smooth, marks := s.marks, axes := s.axes })
  | .littlewood =>
    let t := Littlewood.Tracker.new viewport s.runSeed .usual s.workers
    .ok (.littlewood { t with proven := s.proven, axes := s.axes })

end Engine

end Argand
