import Argand.CommandLine.Arguments
import Argand.Decimal.Numeral
import Argand.Point

/-!
# Checks

What a command line has to be before it is run (`check`) : there is a file to write to unless a
kernel is wanted, every value can be that of its parameter (`checkText`), and nothing is given
twice.

Checks read numbers, and so does the run later on, each for itself. Here are also the readers that
both use.
-/

namespace Argand.CommandLine

/-! ## Numbers -/

/-- Reads two numbers with a separator between them. -/
def readPair? {α : Type} (read : String → Option α) (separator : Char) (text : String) :
    Option (α × α) :=
  let cs := text.toList
  match cs.dropWhile (· ≠ separator) with
  | [] => none
  | _ :: after => do
    let a ← read (String.ofList (cs.takeWhile (· ≠ separator)))
    let b ← read (String.ofList after)
    some (a, b)

/-- Reads the sides of a picture, which have sixteen bits. -/
def readSize? (text : String) : Option (Nat × Nat) :=
  readPair? (readNat? (Nat.pow 2 16 - 1)) 'x' text

/-- Reads a point. -/
def readPoint? (text : String) : Option (Point Float) :=
  (readPair? readFloat? ',' text).map fun (x, y) => ⟨x, y⟩

/-- Reads a number of passes for its check, as a signed number of thirty-two bits. -/
def readSigned? (text : String) : Option Int :=
  readInt? (Nat.pow 2 31 - 1) text

/-- Reads a count of sixty-four bits. -/
def readCount? (text : String) : Option Nat :=
  readNat? (Nat.pow 2 64 - 1) text

/-- Reads a word of thirty-two bits. -/
def readWord? (text : String) : Option Nat :=
  readNat? (Nat.pow 2 32 - 1) text

/-! ## Values -/

/-- What is said of a text that cannot be read. -/
def checkReadable {α : Type} (message : String) : Option α → Option String
  | some _ => none
  | none => some message

/-- What is said of a number that cannot be read or is out of bounds. -/
def checkWithin {α : Type} [LE α] [DecidableLE α] (low high : α) (unreadable outside : String) :
    Option α → Option String
  | some n => if low ≤ n ∧ n ≤ high then none else some outside
  | none => some unreadable

/-- The least positive double with all its digits. -/
def leastZoom : Float := Float.ofBits 0x0010000000000000

/-- The greatest double. -/
def greatestZoom : Float := Float.ofBits 0x7FEFFFFFFFFFFFFF

/-- What is said of a text as a value of a parameter, on a machine with some cores. -/
def complaint? (cores : Nat) : Parameter → String → Option String
  | .size, text => checkReadable "Could not parse output image size" (readSize? text)
  | .center, text => checkReadable "Could not parse view center" (readPoint? text)
  | .julia, text => checkReadable "Could not parse Julia parameter" (readPoint? text)
  | .start, text => checkReadable "Could not parse starting point" (readPoint? text)
  | .zoom, text =>
    checkWithin leastZoom greatestZoom "Could not parse zoom" "Zoom must be a positive number"
      (readFloat? text)
  | .advances, text =>
    checkWithin 0 100000 "Could not parse advance count"
      "Advance count must be between 0 and 100000" (readSigned? text)
  | .threads, text =>
    checkWithin 1 cores "Could not parse thread count"
      ("Thread count must be between 1 and " ++ toString cores) (readCount? text)
  | .seed, text =>
    checkWithin 0 (Nat.pow 2 32 - 1) "Could not parse seed" "Seed must fit in 32 bits" (readWord? text)
  | .mode, _ | .output, _ | .function, _ | .derivative, _ | .palette, _ => none

/-- Whether a text is among the values a parameter can have. -/
def isChoice (p : Parameter) (text : String) : Bool :=
  match p.choices? with
  | some choices => choices.any (Scheme.sameName · text)
  | none => true

/-- Checks a text as a value of a parameter. -/
def checkText (cores : Nat) (p : Parameter) (text : String) : Except Misuse Unit :=
  if isChoice p text then
    match complaint? cores p text with
    | some message => .error (.rejected p message)
    | none => .ok ()
  else .error .malformed

/-- Whether a parameter is there without a value, and none is usual. -/
def lacksValue (items : List Item) (p : Parameter) : Bool :=
  0 < occurrences p items && (value? p items).isNone

/-- Whether a command line ends where the value of a parameter that lacks one should follow. -/
def endsEarly (items : List Item) : Bool :=
  match items.getLast? with
  | some (.value p none) => lacksValue items p
  | _ => false

/-- Checks all that is given for a parameter. -/
def checkParameter (cores : Nat) (items : List Item) (p : Parameter) : Except Misuse Unit := do
  if lacksValue items p then throw .malformed
  (givenTexts p items).forM (checkText cores p)
  if 1 < occurrences p items then throw .malformed

/-- Checks a command line. What is missing comes before what is wrong : the file to write to, and
the value at the end. -/
def check (cores : Nat) (items : List Item) : Except Misuse Unit := do
  if occurrences .output items = 0 && !isOn .emitKernel items then
    throw .malformed
  if endsEarly items then throw .malformed
  Parameter.all.forM (checkParameter cores items)
  if Switch.all.any fun s => 1 < items.count (.switch s) then throw .malformed

end Argand.CommandLine
