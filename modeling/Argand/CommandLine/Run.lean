import Argand.CommandLine.Check
import Argand.CommandLine.Help
import Argand.Engine.Basic

/-!
# Runs

`run` does what a command line asks for, up to writing a file : it prints help or a kernel, draws a
picture for a file, or says what is wrong. What it takes from outside, such as random draws, is in
its `Surroundings`.
-/

namespace Argand.CommandLine

/-- What a run takes from outside. -/
structure Surroundings where
  /-- The number of cores of the machine. -/
  cores : Nat
  /-- A random draw for the first estimates of roots. -/
  seed : UInt32
  /-- A random draw for a scheme. -/
  scheme : Nat

/-- Why a run fails. -/
inductive Failure where
  | compile (e : CompileError)
  | view (e : ViewError Float)
  /-- A parameter has to be given together with another one. -/
  | lacks (p : Parameter)
  /-- A mode has no function to compile. -/
  | noFunction (m : Mode)
  | unknownMode (name : String)
  | unknownPalette (name : String)
  | unreadableSize
  | unreadable (p : Parameter) (text : String)
  /-- A counter has no room for the passes. No check lets so many of them through. -/
  | overflow
  | noOutput
deriving Repr

/-- The wording of a failure. -/
def Failure.message : Failure → String
  | compile e => e.message
  | view e => e.message
  | lacks p => "Newton mode needs --" ++ p.name ++ " as well"
  | noFunction m => "The " ++ m.name ++ " engine takes no user function"
  | unknownMode name => Mode.unknownMessage name
  | unknownPalette name => "Unknown palette '" ++ name ++ "'"
  | unreadableSize => "Could not parse image size"
  | unreadable p text => "Could not parse " ++ p.name ++ " '" ++ text ++ "'"
  | overflow => "A counter has no room for so many passes"
  | noOutput => "No output file given"

/-- What comes of a command line. -/
inductive Outcome where
  | printed (text : String)
  /-- A picture that is to be written to a file. -/
  | drew (path : String) (picture : Picture)
  | failed (f : Failure)
  | misused (m : Misuse)

/-! ## Values -/

/-- The text of a parameter that has one. -/
def textOf (p : Parameter) (items : List Item) : String :=
  (value? p items).getD ""

/-- Reads the value of a parameter. -/
def readValue {α : Type} (read : String → Option α) (p : Parameter) (items : List Item) :
    Except Failure α :=
  let text := textOf p items
  match read text with
  | some a => .ok a
  | none => .error (.unreadable p text)

/-- Reads the value of a parameter if it has one. -/
def readValue? {α : Type} (read : String → Option α) (p : Parameter) (items : List Item) :
    Except Failure (Option α) :=
  match value? p items with
  | some _ => (readValue read p items).map some
  | none => .ok none

/-- The function and its derivative. Newton's method has a pair of its own where neither is
given. -/
def functions (m : Mode) (items : List Item) : Except Failure (String × String) :=
  match m, value? .function items, value? .derivative items with
  | .newton, none, none => .ok ("z^3 - 1", "3z^2")
  | .newton, some _, none => .error (.lacks .derivative)
  | .newton, none, some _ => .error (.lacks .function)
  | _, f, df => .ok (f.getD "z*z + c", df.getD "1")

/-- The kernel of a mode that has one. -/
def kernelOf (m : Mode) (function derivative : String) : Except Failure Kernel :=
  match m with
  | .escape => (Kernel.iteration function).mapError .compile
  | .newton => (Kernel.newton function derivative).mapError .compile
  | m => .error (.noFunction m)

/-- The scheme of a name, or a random one. -/
def schemeOf (s : Surroundings) (name : String) : Except Failure (Scheme Float32) :=
  if Scheme.sameName "random" name then
    let schemes : List (Scheme Float32) := Scheme.all
    .ok (schemes.getD (s.scheme % schemes.length) Scheme.gray)
  else
    match Scheme.named? name with
    | some scheme => .ok scheme
    | none => .error (.unknownPalette name)

/-- The number of passes of a mode where none is asked for. -/
def usualAdvances : Mode → Nat
  | .mandelbrot | .julia => 4
  | .littlewood => 200
  | .escape | .newton => 0

/-! ## Runs -/

/-- The mode of a command line. -/
def modeOf (items : List Item) : Except Failure Mode :=
  let name := textOf .mode items
  match Mode.ofName? name with
  | some m => .ok m
  | none => .error (.unknownMode name)

/-- The viewport of a command line. -/
def viewportOf (items : List Item) : Except Failure (Viewport Float) := do
  let some (width, height) := readSize? (textOf .size items) | .error .unreadableSize
  let zoom ← readValue readFloat? .zoom items
  let center ← readValue readPoint? .center items
  (Viewport.new? width height center zoom).mapError .view

/-- The settings of an engine on a command line. -/
def settingsOf (s : Surroundings) (function derivative : String) (items : List Item) :
    Except Failure Engine.Settings := do
  let runSeed := (← readValue? readWord? .seed items).map (·.toUInt32)
  let seed ← readValue readPoint? .start items
  let julia ← readValue readPoint? .julia items
  let threads ← readValue? readCount? .threads items
  return {
    function, derivative, seed, julia
    runSeed := runSeed.getD s.seed
    smooth := isOn .smooth items
    marks := isOn .showRoots items
    axes := isOn .axes items
    proven := isOn .proven items
    workers := .ofNat (threads.getD s.cores) }

/-- Draws the picture of a command line. -/
def draw (s : Surroundings) (m : Mode) (function derivative : String) (items : List Item) :
    Except Failure Picture := do
  let viewport ← viewportOf items
  let settings ← settingsOf s function derivative items
  let scheme ← schemeOf s (textOf .palette items)
  let engine ← (Engine.create m viewport settings).mapError .compile
  let advances := (← readValue? readCount? .advances items).getD (usualAdvances m)
  match Engine.advanceBy advances engine with
  | .ok _ engine => return engine.render scheme (.black viewport.width viewport.height)
  | .error _ _ => .error .overflow

/-- Does what the items of a command line ask for. -/
def perform (s : Surroundings) (items : List Item) : Except Failure Outcome := do
  let m ← modeOf items
  let (function, derivative) ← functions m items
  if isOn .emitKernel items then
    return .printed (← kernelOf m function derivative).source
  let picture ← draw s m function derivative items
  let some path := value? .output items | .error .noOutput
  return .drew path picture

/-- Does what a command line asks for, if `read` gives its items. -/
def runWith (read : List String → Except Stop (List Item)) (s : Surroundings)
    (arguments : List String) : Outcome :=
  match read arguments with
  | .error .help => .printed helpText
  | .error .version => .printed versionText
  | .error (.misuse m) => .misused m
  | .ok items =>
    match check s.cores items with
    | .error m => .misused m
    | .ok () =>
      match perform s items with
      | .ok outcome => outcome
      | .error f => .failed f

/-- Does what a command line asks for. -/
def run (s : Surroundings) (arguments : List String) : Outcome :=
  runWith readArguments s arguments

end Argand.CommandLine
