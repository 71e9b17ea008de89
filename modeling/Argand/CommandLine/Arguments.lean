import Argand.CommandLine.Parameter

/-!
# Arguments

`readArguments` reads a command line as a list of items : parameters with their values, and
switches. A name stands behind two hyphens, or more, and its value behind an equals sign or in the
next argument; a letter stands behind one hyphen, and its value behind it in the same argument or in
the next. A parameter whose value is missing at the end, or before an argument that begins a new
item, is an item all the same.
-/

namespace Argand.CommandLine

/-- What is wrong with a command line. -/
inductive Misuse where
  /-- It does not have the form of a command line. -/
  | malformed
  /-- A value cannot be that of its parameter. -/
  | rejected (p : Parameter) (message : String)
deriving Repr, DecidableEq

/-- Why a command line is not run. -/
inductive Stop where
  | help
  | version
  | misuse (m : Misuse)
deriving Repr, DecidableEq

/-- A part of a command line. -/
inductive Item where
  | value (p : Parameter) (text : Option String)
  | switch (s : Switch)
deriving Repr, DecidableEq

/-- A first part of an argument, read on its own. -/
inductive Opening where
  | complete (item : Item)
  /-- A parameter whose value may come in the next argument. -/
  | pending (p : Parameter)
deriving Repr, DecidableEq

/-- The text behind an equals sign, or behind several. -/
def textBehindEquals (cs : List Char) : String :=
  String.ofList (cs.dropWhile (· = '='))

/-- Reads an argument with a name, without its hyphens. What is given to a switch is passed over. -/
def readLong (body : List Char) : Except Stop Opening :=
  let name := String.ofList (body.takeWhile (· ≠ '='))
  let rest := body.dropWhile (· ≠ '=')
  match Parameter.ofName? name, Switch.ofName? name with
  | some p, _ =>
    if rest.isEmpty then .ok (.pending p)
    else .ok (.complete (.value p (some (textBehindEquals rest))))
  | none, some s => .ok (.complete (.switch s))
  | none, none =>
    if name = "help" then .error .help
    else if name = "version" then .error .version
    else .error (.misuse .malformed)

/-- Reads an argument with a letter. -/
def readShort (letter : Char) (rest : List Char) : Except Stop Opening :=
  match Parameter.ofLetter? letter with
  | some p =>
    if rest.isEmpty then .ok (.pending p)
    else .ok (.complete (.value p (some (textBehindEquals rest))))
  | none =>
    if letter = 'h' then .error .help
    else if letter = 'V' then .error .version
    else .error (.misuse .malformed)

/-- Reads an argument that begins an item. -/
def readOpening (argument : String) : Except Stop Opening :=
  match argument.toList with
  | '-' :: '-' :: body => readLong (body.dropWhile (· = '-'))
  | '-' :: letter :: rest => readShort letter rest
  | _ => .error (.misuse .malformed)

/-- Whether an argument looks like the beginning of an item. -/
def looksLikeOpening (argument : String) : Bool :=
  match argument.toList with
  | '-' :: _ :: _ => true
  | _ => false

/-- Reads a command line. Nothing may follow two hyphens that stand alone. -/
def readArguments : List String → Except Stop (List Item)
  | [] => .ok []
  | ["--"] => .ok []
  | "--" :: _ :: _ => .error (.misuse .malformed)
  | argument :: rest => do
    match ← readOpening argument with
    | .complete item => return item :: (← readArguments rest)
    | .pending p =>
      match rest with
      | [] => return [.value p none]
      | next :: rest =>
        if p.takesHyphens || !looksLikeOpening next then
          return .value p (some next) :: (← readArguments rest)
        else return .value p none :: (← readArguments (next :: rest))
termination_by args => args.length

/-! ## What is asked for -/

/-- The values given for a parameter. -/
def givenTexts (p : Parameter) (items : List Item) : List String :=
  items.filterMap fun
    | .value q text => if q = p then text else none
    | .switch _ => none

/-- How often a parameter is given, with a value or without. -/
def occurrences (p : Parameter) (items : List Item) : Nat :=
  items.countP fun
    | .value q _ => q = p
    | .switch _ => false

/-- The value of a parameter, given or usual. -/
def value? (p : Parameter) (items : List Item) : Option String :=
  (givenTexts p items).head?.or p.usual?

/-- Whether a switch is there. -/
def isOn (s : Switch) (items : List Item) : Bool :=
  items.contains (.switch s)

end Argand.CommandLine
