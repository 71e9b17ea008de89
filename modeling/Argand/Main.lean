import Argand.CommandLine.Run
import Argand.ImageFormat

/-!
# The program

Runs a command line in the world : prints what is to be printed, writes the picture that has been
drawn, and reports what went wrong.
-/

namespace Argand

/-- The number of cores of the machine, or one if it cannot be told. -/
def coreCount : IO Nat := do
  try
    let lines := (← IO.FS.readFile "/proc/cpuinfo").splitOn "\n"
    return max 1 (lines.countP (·.startsWith "processor"))
  catch _ => return 1

/-- Writes a picture to a file. Gives what went wrong, if anything did. -/
def save (path : String) (picture : Picture) : IO (Option String) := do
  try
    let file ← IO.FS.Handle.mk path .write
    match picture.formatFor path with
    | .ok .pixmap =>
      file.write picture.toPixmap
      return none
    | .ok _ => return some "Only pixmaps can be written"
    | .error e => return some e.message
  catch e => return some (toString e)

/-- Reports a failure. -/
def report (message : String) : IO UInt32 := do
  IO.eprintln ("Render failure: " ++ message)
  return 1

end Argand

open Argand in
/-- Runs the command line with the given arguments. -/
def main (arguments : List String) : IO UInt32 := do
  let surroundings : CommandLine.Surroundings :=
    { cores := ← coreCount
      seed := (← IO.rand 0 (Nat.pow 2 32 - 1)).toUInt32
      scheme := ← IO.rand 0 (Scheme.names.length - 1) }
  match CommandLine.run surroundings arguments with
  | .printed text =>
    IO.print text
    return 0
  | .drew path picture =>
    match ← save path picture with
    | none => return 0
    | some message => report message
  | .failed f => report f.message
  | .misused (.rejected p message) =>
    IO.eprintln ("error: Invalid value for '--" ++ p.name ++ " <" ++ p.name ++ ">': " ++ message)
    return 1
  | .misused .malformed =>
    IO.eprintln "error: The arguments cannot be understood. For more information try --help"
    return 1
