import Argand.Decimal.Numeral
import Argand.Text.Alphabetic
import Argand.Text.Blank
import Argand.Text.Numeric

/-!
# Lexemes

`scan` cuts a text into lexemes, each with the place where it begins. Places are counted in bytes
of the UTF-8 form of the text. Blanks only separate. A name goes on for as long as letters,
numerals and underscores follow; a number is a run of digits and points with an optional power of
ten, and a letter `e` begins one only if a digit follows, so that `2e` is two lexemes. Each lexeme
is decided at its first character by `Token.read`, which also says how many more characters it
takes.
-/

namespace Argand

/-! ## Failures -/

/-- Why a text is not an expression. -/
inductive SyntaxCause where
  | malformedNumber
  | numberOutOfRange
  | unexpectedCharacter (c : Char)
  | nestedTooDeeply
  | unexpectedEnd
  | expectedOperand
  | expectedClosing
  | expectedCommaOrClosing
  | trailingInput
deriving Repr, DecidableEq

/-- The wording of a cause. -/
def SyntaxCause.message : SyntaxCause → String
  | malformedNumber => "malformed number"
  | numberOutOfRange => "number out of range"
  | unexpectedCharacter c => "unexpected character '" ++ String.singleton c ++ "'"
  | nestedTooDeeply => "expression nested too deeply"
  | unexpectedEnd => "unexpected end of expression"
  | expectedOperand => "expected a number, name or '('"
  | expectedClosing => "expected ')'"
  | expectedCommaOrClosing => "expected ',' or ')'"
  | trailingInput => "unexpected trailing input"

/-- A failure to read an expression, and the place in the text that it blames. -/
structure SyntaxError where
  position : Nat
  cause : SyntaxCause
deriving Repr, DecidableEq

/-! ## Tokens -/

/-- The words of expressions. -/
inductive Token where
  | number (value : Float)
  | name (text : String)
  | plus
  | minus
  | times
  | divide
  | power
  | opening
  | closing
  | comma
deriving Repr, DecidableEq

/-- A token and the place where it begins. -/
structure Lexeme where
  token : Token
  position : Nat
deriving Repr, DecidableEq

/-- The number of bytes of the UTF-8 form of a text. -/
def utf8Length (cs : List Char) : Nat :=
  cs.foldl (fun n c => n + c.utf8Size) 0

/-- A character that can begin a name. -/
def startsName (c : Char) : Bool :=
  isAlphabetic c || c = '_'

/-- A character that can go on a name. -/
def continuesName (c : Char) : Bool :=
  isAlphabetic c || isNumeric c || c = '_'

/-- A character of the part of a number before its power of ten. -/
def inNumber (c : Char) : Bool :=
  isDigit c || c = '.'

/-- The length of the power of ten at the start of a text : a letter `e`, an optional sign and
digits, of which there has to be one. -/
def powerLength : List Char → Nat
  | [] => 0
  | c :: cs =>
    if c ≠ 'e' ∧ c ≠ 'E' then 0
    else
      let signLength := match cs with
        | s :: _ => if s = '+' ∨ s = '-' then 1 else 0
        | [] => 0
      let digits := ((cs.drop signLength).takeWhile isDigit).length
      if digits = 0 then 0 else 1 + signLength + digits

/-- The length of the number at the start of a text. -/
def numberLength (cs : List Char) : Nat :=
  let front := (cs.takeWhile inNumber).length
  front + powerLength (cs.drop front)

/-- The value of the characters of a number. -/
def numberToken (cs : List Char) : Except SyntaxCause Token :=
  match readFloat? (String.ofList cs) with
  | none => .error .malformedNumber
  | some value => if value.isFinite then .ok (.number value) else .error .numberOutOfRange

/-- The token that begins with `c` in the text `c :: cs`, and how many characters of `cs` belong
to it. -/
def Token.read (c : Char) (cs : List Char) : Except SyntaxCause (Token × Nat) :=
  if inNumber c then
    let n := numberLength (c :: cs)
    (numberToken ((c :: cs).take n)).map fun t => (t, n - 1)
  else if startsName c then
    let more := cs.takeWhile continuesName
    .ok (.name (String.ofList (c :: more)), more.length)
  else match c with
    | '+' => .ok (.plus, 0)
    | '-' => .ok (.minus, 0)
    | '*' => .ok (.times, 0)
    | '/' => .ok (.divide, 0)
    | '^' => .ok (.power, 0)
    | '(' => .ok (.opening, 0)
    | ')' => .ok (.closing, 0)
    | ',' => .ok (.comma, 0)
    | c => .error (.unexpectedCharacter c)

/-- The lexemes of a text that begins at `position`. -/
def scan (position : Nat) (cs : List Char) : Except SyntaxError (List Lexeme) :=
  match cs with
  | [] => .ok []
  | c :: cs =>
    if isBlank c then scan (position + c.utf8Size) cs
    else match Token.read c cs with
      | .error cause => .error ⟨position, cause⟩
      | .ok (token, more) =>
        (scan (position + utf8Length (c :: cs.take more)) (cs.drop more)).map
          (⟨token, position⟩ :: ·)
termination_by cs.length
decreasing_by all_goals simp +arith

end Argand
