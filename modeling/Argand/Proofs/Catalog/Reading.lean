import Argand.Proofs.Catalog.Order

/-!
# Reading shader bodies

The text of a body is read by the grammar of the shading language, as far as the catalog uses it : a sign in
front binds tightest, then products and quotients, then sums and differences, all from the left, and
parentheses override that. Operands are reals or vectors, and an operator or a function is one of the body's
data according to what its operands are (`Phrase.join`, `Phrase.ofCall?`).

`Body.read?` knows the text alone. Every body of the catalog is what its text reads as (`read?_body`), so
nothing in the data of a body is lost or bound otherwise in the text.
-/

namespace Argand.Shader

/-! ## Words and marks -/

/-- Whether a character belongs to a word. -/
def inWord (c : Char) : Bool :=
  c.isAlphanum || c = '_'

/-- The words of a text, and each other character by itself. -/
def pieces : List Char → List (List Char)
  | [] => []
  | c :: cs =>
    match pieces cs with
    | [] => [[c]]
    | w :: ws => if inWord c && w.all inWord then (c :: w) :: ws else [c] :: w :: ws

def Variable.ofName? (name : String) : Option Variable :=
  [a, b, epa, ema].find? (·.write = name)

def Function.ofName? (name : String) : Option Function :=
  [exp, log, sin, cos].find? (·.write = name)

/-- The number of some digits. -/
def digits? (cs : List Char) : Option Nat :=
  if cs.all Char.isDigit then some (cs.foldl (fun n c => 10 * n + (c.toNat - '0'.toNat)) 0) else none

/-! ## Phrases -/

/-- An operand, by its type. -/
inductive Phrase where
  | real (s : Scalar)
  | vector (v : Vec)
deriving Repr, DecidableEq

/-- The operators between operands. -/
inductive Sign where
  | plus | minus | times | divided
deriving Repr, DecidableEq

/-- How tight an operator binds. -/
def Sign.level : Sign → Nat
  | plus | minus => 0
  | times | divided => 1

def Sign.ofChar? : Char → Option Sign
  | '+' => some .plus
  | '-' => some .minus
  | '*' => some .times
  | '/' => some .divided
  | _ => none

/-- The operator at the beginning of a text, with or without blanks around it. -/
def operator? : List (List Char) → Option (Sign × Bool × List (List Char))
  | [' '] :: [c] :: [' '] :: rest => (Sign.ofChar? c).map (·, true, rest)
  | [c] :: rest => (Sign.ofChar? c).map (·, false, rest)
  | _ => none

namespace Phrase

/-- Two operands with an operator between them. -/
def join (p : Phrase) (sign : Sign) (spaced : Bool) (q : Phrase) : Option Phrase :=
  match p, sign, q with
  | real s, .plus, real t => some (.real (.operate .plus spaced s t))
  | real s, .minus, real t => some (.real (.operate .minus spaced s t))
  | real s, .times, real t => some (.real (.operate .times spaced s t))
  | vector v, .plus, vector w => some (.vector (.plus v w))
  | vector v, .minus, vector w => some (.vector (.minus v w))
  | real s, .times, vector w => some (.vector (.scale spaced s w))
  | vector v, .divided, real t => some (.vector (.quotient spaced v t))
  | _, _, _ => none

/-- An operand with a sign in front. -/
def negate : Phrase → Phrase
  | real s => real (.negate s)
  | vector v => vector (.negate v)

/-- An operand in parentheses. -/
def paren? : Phrase → Option Phrase
  | real _ => none
  | vector v => some (vector (.paren v))

/-- A function of the name `c_` and that of an operation, or one that the language has. -/
def ofCall? (function : List Char) (operands : List Phrase) : Option Phrase :=
  match function, operands with
  | 'c' :: '_' :: name, [vector v] => (Unary.ofName? (.ofList name)).map fun f => vector (.unary f v)
  | 'c' :: '_' :: name, [vector v, vector w] =>
    (Binary.ofName? (.ofList name)).map fun f => vector (.binary f v w)
  | name, [real s] => (Function.ofName? (.ofList name)).map fun f => real (.apply f s)
  | name, [real s, real t] =>
    if name = "vec2".toList then some (vector (.pair s t))
    else if name = "atan".toList then some (real (.atan s t))
    else none
  | name, [vector (.named v)] => if name = "length".toList then some (real (.length v)) else none
  | name, [vector (.named v), vector (.named w)] =>
    if name = "dot".toList then some (real (.dot v w)) else none
  | _, _ => none

/-- Two words with a point between them : a part of a vector, or a number. -/
def ofPointed? (before after : List Char) : Option Phrase :=
  match Variable.ofName? (.ofList before), after with
  | some v, ['x'] => some (real (.x v))
  | some v, ['y'] => some (real (.y v))
  | some _, _ => none
  | none, _ => do
    let units ← digits? (before ++ after)
    some (real (.number units after.length false))

end Phrase

/-! ## Expressions -/

mutual

/-- Reads an expression whose operators bind at least as tight as a level. -/
def readPhrase? : Nat → Nat → List (List Char) → Option (Phrase × List (List Char))
  | 0, _, _ => none
  | n + 1, level, text => do
    let (p, rest) ← readOperand? n text
    readFrom? n level p rest

/-- Goes on with an expression after an operand. -/
def readFrom? : Nat → Nat → Phrase → List (List Char) → Option (Phrase × List (List Char))
  | 0, _, _, _ => none
  | n + 1, level, p, text =>
    match operator? text with
    | none => some (p, text)
    | some (sign, spaced, rest) =>
      if sign.level < level then some (p, text)
      else do
        let (q, rest) ← readPhrase? n (sign.level + 1) rest
        readFrom? n level (← p.join sign spaced q) rest

/-- Reads an operand. -/
def readOperand? : Nat → List (List Char) → Option (Phrase × List (List Char))
  | 0, _ => none
  | n + 1, text =>
    match text with
    | ['-'] :: rest => do
      let (p, rest) ← readOperand? n rest
      some (p.negate, rest)
    | ['('] :: rest => do
      let (p, rest) ← readPhrase? n 0 rest
      match rest with
      | [')'] :: rest => some (← p.paren?, rest)
      | _ => none
    | ['.'] :: decimals :: rest => do
      let units ← digits? decimals
      some (.real (.number units decimals.length true), rest)
    | function :: ['('] :: rest => do
      let (operands, rest) ← readOperands? n rest
      some (← Phrase.ofCall? function operands, rest)
    | before :: ['.'] :: after :: rest => do
      some (← Phrase.ofPointed? before after, rest)
    | name :: rest => do
      some (.vector (.named (← Variable.ofName? (.ofList name))), rest)
    | [] => none

/-- Reads the operands of a function, up to the closing parenthesis. -/
def readOperands? : Nat → List (List Char) → Option (List Phrase × List (List Char))
  | 0, _ => none
  | n + 1, text => do
    let (p, rest) ← readPhrase? n 0 text
    match rest with
    | [')'] :: rest => some ([p], rest)
    | [','] :: [' '] :: rest => do
      let (ps, rest) ← readOperands? n rest
      some (p :: ps, rest)
    | _ => none

end

/-! ## Bodies -/

/-- Reads a vector up to a semicolon. -/
def readVec? (text : List (List Char)) : Option (Vec × List (List Char)) :=
  match readPhrase? text.length 0 text with
  | some (.vector v, [';'] :: rest) => some (v, rest)
  | _ => none

/-- Reads at most `n` declarations and the result. -/
def Body.readFrom? : Nat → List (Variable × Vec) → List (List Char) → Option Body
  | n, locals, keyword :: [' '] :: text =>
    if keyword = "return".toList then
      match readVec? text with
      | some (result, []) => some ⟨locals, result⟩
      | _ => none
    else if keyword = "vec2".toList then
      match n, text with
      | n + 1, name :: [' '] :: ['='] :: [' '] :: text =>
        match Variable.ofName? (.ofList name), readVec? text with
        | some v, some (value, [' '] :: text) => readFrom? n (locals ++ [(v, value)]) text
        | _, _ => none
      | _, _ => none
    else none
  | _, _, _ => none

/-- The body that a text reads as. -/
def Body.read? (text : String) : Option Body :=
  let text := pieces text.toList
  readFrom? text.length [] text

end Argand.Shader

namespace Argand.Operation

open Shader

/-- The text of a body reads as the body. -/
theorem read?_body (o : Operation) : Body.read? o.body.write = some o.body := by
  have table : ∀ o ∈ all, Body.read? o.body.write = some o.body := by decide +kernel
  exact table o o.mem_all

end Argand.Operation
