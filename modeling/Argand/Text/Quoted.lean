import Argand.Text.Visible

/-!
# Quoted texts

A text between quotes that hides nothing : `quoted` writes a backslash before quotes and
backslashes, has a letter for the usual control characters, and gives every other character that
does not show by itself as its code point.
-/

namespace Argand

/-- A code point in hexadecimal digits, as it stands between quotes. -/
def quotedCodePoint (c : Char) : List Char :=
  ['\\', 'u', '\x7b'] ++ Nat.toDigits 16 c.toNat ++ ['\x7d']

/-- A character as it stands between quotes. -/
def quotedChar (c : Char) : List Char :=
  match c with
  | '"' => ['\\', '"']
  | '\\' => ['\\', '\\']
  | '\n' => ['\\', 'n']
  | '\r' => ['\\', 'r']
  | '\t' => ['\\', 't']
  | '\x00' => ['\\', '0']
  | c => if isVisible c then [c] else quotedCodePoint c

/-- A text between quotes. -/
def quoted (cs : List Char) : List Char :=
  '"' :: cs.flatMap quotedChar ++ ['"']

end Argand
