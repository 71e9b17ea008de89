import Argand.Engine.Mode
import Argand.Palette.Named

/-!
# Parameters and switches

What can be asked for on the command line. A `Parameter` has a value, given behind its name or its
letter; a `Switch` is there or not.
-/

namespace Argand.CommandLine

/-- What has a value on the command line. -/
inductive Parameter where
  | mode | output | size | center | zoom | function | derivative | julia | start | palette
  | advances | threads | seed
deriving Repr, DecidableEq

/-- What is there on the command line or not. -/
inductive Switch where
  | smooth | showRoots | axes | proven | emitKernel
deriving Repr, DecidableEq

namespace Parameter

/-- Every parameter, in the order in which their values are checked. -/
def all : List Parameter :=
  [mode, output, size, center, zoom, function, derivative, julia, start, palette, advances,
    threads, seed]

def name : Parameter → String
  | mode => "mode"
  | output => "output"
  | size => "size"
  | center => "center"
  | zoom => "zoom"
  | function => "function"
  | derivative => "derivative"
  | julia => "julia"
  | start => "start"
  | palette => "palette"
  | advances => "advances"
  | threads => "threads"
  | seed => "seed"

/-- The letter that stands for a parameter. -/
def letter? : Parameter → Option Char
  | mode => some 'm'
  | output => some 'o'
  | size => some 's'
  | center => some 'c'
  | zoom => some 'z'
  | function => some 'f'
  | derivative => some 'd'
  | julia => some 'j'
  | palette => some 'p'
  | advances => some 'a'
  | threads => some 't'
  | start | seed => none

/-- The value of a parameter where none is given. -/
def usual? : Parameter → Option String
  | mode => some "mandelbrot"
  | size => some "800x600"
  | center | start => some "0,0"
  | zoom => some "3"
  | julia => some "-0.8,0.156"
  | palette => some "UGent"
  | output | function | derivative | advances | threads | seed => none

/-- Whether the argument behind a parameter is its value even if it begins like a parameter. -/
def takesHyphens : Parameter → Bool
  | center | function | derivative | julia | start => true
  | mode | output | size | zoom | palette | advances | threads | seed => false

/-- The values a parameter can have, if they are listed. -/
def choices? : Parameter → Option (List String)
  | mode => some (Mode.all.map (·.name))
  | palette => some (Scheme.names ++ ["random"])
  | _ => none

/-- What a parameter is for. -/
def purpose : Parameter → String
  | mode => "Which engine to run"
  | output => "Output file; the extension picks the format"
  | size => "Size of output image"
  | center => "Point at the middle of the image"
  | zoom => "Extent of the plane along the shorter side of the image"
  | function => "Iteration map in z and c (escape) or f(z) (newton)"
  | derivative => "Derivative of the function (newton)"
  | julia => "The fixed c of a Julia set"
  | start => "Starting z of every orbit (escape)"
  | palette => "Color scheme"
  | advances => "Batches to run before rendering (mandelbrot, julia, littlewood)"
  | threads => "Number of threads to use; all cores if absent"
  | seed => "Seed for the initial root estimates (littlewood); random if absent"

/-- The parameter of a name. -/
def ofName? (name : String) : Option Parameter :=
  all.find? (·.name = name)

/-- The parameter of a letter. -/
def ofLetter? (c : Char) : Option Parameter :=
  all.find? (·.letter? = some c)

end Parameter

namespace Switch

/-- Every switch. -/
def all : List Switch :=
  [smooth, showRoots, axes, proven, emitKernel]

def name : Switch → String
  | smooth => "smooth"
  | showRoots => "show-roots"
  | axes => "axes"
  | proven => "proven"
  | emitKernel => "emit-kernel"

/-- What a switch is for. -/
def purpose : Switch → String
  | smooth => "Smooth shading (newton)"
  | showRoots => "Mark the roots (newton)"
  | axes => "Draw the coordinate axes"
  | proven => "Paint the region proven free of roots (littlewood)"
  | emitKernel => "Print the compiled kernel source instead of rendering"

/-- The switch of a name. -/
def ofName? (name : String) : Option Switch :=
  all.find? (·.name = name)

end Switch

end Argand.CommandLine
