import RouteContract.Text.Unicode.Printable

/-!
# Quoted texts

A text inside a message is written between quotation marks, so that its ends and its invisible
characters can be seen. The mark is the single one unless the text holds a single mark and no double
one. The mark itself, the backslash and every unprintable character are written as escapes.
-/

namespace RouteContract.Text

set_option autoImplicit false

/-- The hexadecimal digit of a number below sixteen. -/
def hexDigit (n : Nat) : Char :=
  if n < 10 then Char.ofNat (0x30 + n) else Char.ofNat (0x61 + (n - 10))

/-- A number as exactly `width` hexadecimal digits, the high digits dropped. -/
def hexDigits : Nat → Nat → List Char
  | 0, _ => []
  | width + 1, n => hexDigits width (n / 16) ++ [hexDigit (n % 16)]

namespace Quoted

/-- The mark around a text. -/
def mark (s : List Char) : Char :=
  if s.contains '\'' && !s.contains '"' then '"' else '\''

/-- How one character is written between two marks. -/
def escape (mark c : Char) : List Char :=
  if c = mark || c = '\\' then ['\\', c]
  else if c = '\n' then ['\\', 'n']
  else if c = '\r' then ['\\', 'r']
  else if c = '\t' then ['\\', 't']
  else if Unicode.isPrintable c then [c]
  else if c.toNat < 0x100 then '\\' :: 'x' :: hexDigits 2 c.toNat
  else if c.toNat < 0x10000 then '\\' :: 'u' :: hexDigits 4 c.toNat
  else '\\' :: 'U' :: hexDigits 8 c.toNat

end Quoted

/-- A text between quotation marks. -/
def quoted (s : List Char) : List Char :=
  let mark := Quoted.mark s
  mark :: s.flatMap (Quoted.escape mark) ++ [mark]

end RouteContract.Text
