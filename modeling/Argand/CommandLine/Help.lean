import Argand.CommandLine.Parameter

/-!
# Help

The text that explains the command line. Parameters and switches are in the order of their names,
each on a line of its own, with what it is for in a second column. What is too long for the second
column goes on in the next line.
-/

namespace Argand.CommandLine

/-- The program with its version. -/
def versionText : String :=
  "planeshader 0.1.0\n"

/-- The greatest length of a line. -/
def lineLength : Nat := 120

/-! ## Breaking lines -/

/-- The words of a text, each behind the blanks before it. -/
def wordsFrom : List Char → List Char → List Char → List (List Char × List Char)
  | blanks, word, [] => if word.isEmpty then [] else [(blanks, word)]
  | blanks, word, c :: cs =>
    if c = ' ' then
      if word.isEmpty then wordsFrom (blanks ++ [' ']) [] cs
      else (blanks, word) :: wordsFrom [' '] [] cs
    else wordsFrom blanks (word ++ [c]) cs

/-- Sets words into lines of a length. The blanks at a break are left out. -/
def setWords (length : Nat) : List Char → List (List Char × List Char) → List (List Char)
  | line, [] => [line]
  | line, (blanks, word) :: rest =>
    if line.length + blanks.length + word.length ≤ length then
      setWords length (line ++ blanks ++ word) rest
    else line :: setWords length word rest

/-- Breaks a text into lines of a length. -/
def breakLines (length : Nat) (text : String) : List String :=
  (setWords length [] (wordsFrom [] [] text.toList)).map String.ofList

/-! ## The two columns -/

/-- A line of help : what to write, and what it is for. -/
structure HelpLine where
  /-- The place in the order of lines. -/
  key : String
  letter : Option Char
  /-- The name with the hyphens before it and a mark for a value. -/
  usage : String
  purpose : String

/-- A blank text of a length. -/
def spaces (n : Nat) : String :=
  String.ofList (List.replicate n ' ')

/-- Writes a line of help, where `widest` is the length of the longest usage. -/
def HelpLine.write (widest : Nat) (l : HelpLine) : String :=
  let letter := match l.letter with
    | some c => "-" ++ c.toString ++ ", "
    | none => spaces 4
  let column := widest + 12
  spaces 4 ++ letter ++ l.usage ++ spaces (widest - l.usage.length + 4) ++
    ("\n" ++ spaces column).intercalate (breakLines (lineLength - column) l.purpose) ++ "\n"

/-- Writes lines of help in their order. -/
def writeLines (ls : List HelpLine) : String :=
  let widest := (ls.map (·.usage.length)).foldl max 0
  String.join ((ls.mergeSort fun a b => a.key ≤ b.key).map (·.write widest))

/-- The line of a parameter. -/
def Parameter.helpLine (p : Parameter) : HelpLine where
  key := p.name
  letter := p.letter?
  usage := "--" ++ p.name ++ " <" ++ p.name ++ ">"
  purpose :=
    let usual := p.usual?.toList.map fun v => " [default: " ++ v ++ "]"
    let choices := p.choices?.toList.map fun vs =>
      " [possible values: " ++ ", ".intercalate vs ++ "]"
    p.purpose ++ " ".intercalate (usual ++ choices)

/-- The line of a switch. -/
def Switch.helpLine (s : Switch) : HelpLine :=
  ⟨s.name, none, "--" ++ s.name, s.purpose⟩

/-- The text that explains the command line. -/
def helpText : String :=
  let switches := Switch.all.map (·.helpLine) ++
    [⟨"help", some 'h', "--help", "Prints help information"⟩,
      ⟨"version", some 'V', "--version", "Prints version information"⟩]
  versionText ++
    "Renders escape-time sets, Newton basins and Littlewood roots\n\n" ++
    "USAGE:\n    planeshader [FLAGS] [OPTIONS] --output <output>\n\n" ++
    "FLAGS:\n" ++ writeLines switches ++ "\n" ++
    "OPTIONS:\n" ++ writeLines (Parameter.all.map (·.helpLine))

end Argand.CommandLine
