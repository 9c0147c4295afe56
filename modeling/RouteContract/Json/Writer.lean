import RouteContract.Json.Basic
import RouteContract.Number.Numeral
import RouteContract.Number.Shortest
import RouteContract.Text.Quoted

/-!
# Writing JSON texts

A value as a JSON text in ASCII: every other character is written as an escape, beyond the basic
plane as the two halves of a pair. A text is written on one line, or with one part to a line and the
parts of a value indented under it.
-/

namespace RouteContract

set_option autoImplicit false

open Number

namespace Json

namespace Writer

/-- An escape with four digits. -/
def unitEscape (n : Nat) : List Char := '\\' :: 'u' :: Text.hexDigits 4 n

/-- How one character is written inside a text. -/
def escape (c : Char) : List Char :=
  let n := c.toNat
  if c == '"' || c == '\\' then ['\\', c]
  else if c == '\n' then ['\\', 'n']
  else if c == '\r' then ['\\', 'r']
  else if c == '\t' then ['\\', 't']
  else if n == 0x0C then ['\\', 'f']
  else if n == 0x08 then ['\\', 'b']
  else if 0x20 ≤ n && n < 0x7F then [c]
  else if n < 0x10000 then unitEscape n
  else unitEscape (0xD800 + (n - 0x10000) / 0x400) ++ unitEscape (0xDC00 + (n - 0x10000) % 0x400)

/-- A text between its marks. -/
def text (s : String) : List Char := '"' :: s.toList.flatMap escape ++ ['"']

/-- How the parts of an array or an object are set out. -/
inductive Layout where
  /-- All on one line, a blank after each comma. -/
  | line
  /-- Each part on a line of its own, this many blanks deeper than the whole. -/
  | indented (step : Nat)

/-- What stands before the first part, at a depth. -/
def Layout.opening : Layout → Nat → List Char
  | .line, _ => []
  | .indented step, depth => '\n' :: List.replicate (step * (depth + 1)) ' '

/-- What stands between two parts, at a depth. -/
def Layout.between : Layout → Nat → List Char
  | .line, _ => ", ".toList
  | .indented step, depth => ',' :: '\n' :: List.replicate (step * (depth + 1)) ' '

/-- What stands after the last part, at a depth. -/
def Layout.closing : Layout → Nat → List Char
  | .line, _ => []
  | .indented step, depth => '\n' :: List.replicate (step * depth) ' '

mutual
/-- A value at a depth. -/
def value (layout : Layout) (depth : Nat) : Json → List Char
  | .null => "null".toList
  | .bool true => "true".toList
  | .bool false => "false".toList
  | .int i => integerText i
  | .float x => FloatStyle.json.text x
  | .str s => text s
  | .arr [] => ['[', ']']
  | .arr (item :: rest) =>
      '[' :: layout.opening depth ++ value layout (depth + 1) item ++ items layout depth rest
  | .obj [] => ['{', '}']
  | .obj ((name, v) :: rest) =>
      '{' :: layout.opening depth ++ text name ++ ": ".toList ++ value layout (depth + 1) v ++
        members layout depth rest

/-- The items after the first one, and the closing bracket. -/
def items (layout : Layout) (depth : Nat) : List Json → List Char
  | [] => layout.closing depth ++ [']']
  | item :: rest =>
      layout.between depth ++ value layout (depth + 1) item ++ items layout depth rest

/-- The members after the first one, and the closing bracket. -/
def members (layout : Layout) (depth : Nat) : List (String × Json) → List Char
  | [] => layout.closing depth ++ ['}']
  | (name, v) :: rest =>
      layout.between depth ++ text name ++ ": ".toList ++ value layout (depth + 1) v ++
        members layout depth rest
end

end Writer

/-! ## Values that have a text -/

mutual
/-- Whether a value can be written: an integer with too many digits has no text. -/
def isWritable : Json → Bool
  | .int i => (decimalDigits i.natAbs).length ≤ digitLimit
  | .arr items => areWritable items
  | .obj members => areMembersWritable members
  | .null => true
  | .bool _ => true
  | .float _ => true
  | .str _ => true

/-- Whether items can be written. -/
def areWritable : List Json → Bool
  | [] => true
  | item :: rest => item.isWritable && areWritable rest

/-- Whether members can be written. -/
def areMembersWritable : List (String × Json) → Bool
  | [] => true
  | (_, v) :: rest => v.isWritable && areMembersWritable rest
end

/-- A value on one line. -/
def write (v : Json) : String := String.ofList (Writer.value .line 0 v)

/-- A value over several lines, two blanks deeper at each level. -/
def writeIndented (v : Json) : String := String.ofList (Writer.value (.indented 2) 0 v)

end Json

end RouteContract
