import RouteContract.Json.Basic
import RouteContract.Number.Shortest
import RouteContract.Text.Quoted

/-!
# Values inside messages

How a value is shown in a message: texts quoted, numbers with their shortest digits, arrays and
objects in brackets with their parts in order.
-/

namespace RouteContract

set_option autoImplicit false

open Number

namespace Json

mutual
/-- A value as a message shows it. -/
def displayChars : Json → List Char
  | .null => "None".toList
  | .bool true => "True".toList
  | .bool false => "False".toList
  | .int i => integerText i
  | .float x => FloatStyle.plain.text x
  | .str s => Text.quoted s.toList
  | .arr [] => "[]".toList
  | .arr (item :: rest) => '[' :: displayChars item ++ displayItems rest
  | .obj [] => ['{', '}']
  | .obj ((name, value) :: rest) =>
      '{' :: Text.quoted name.toList ++ ": ".toList ++ displayChars value ++ displayMembers rest

/-- The items after the first one, and the closing bracket. -/
def displayItems : List Json → List Char
  | [] => [']']
  | item :: rest => ", ".toList ++ displayChars item ++ displayItems rest

/-- The members after the first one, and the closing bracket. -/
def displayMembers : List (String × Json) → List Char
  | [] => ['}']
  | (name, value) :: rest =>
      ", ".toList ++ Text.quoted name.toList ++ ": ".toList ++ displayChars value ++
        displayMembers rest
end

/-- A value as a message shows it. -/
def display (v : Json) : String := String.ofList (displayChars v)

/-- A value as a message shows it where a text stands without quotation marks. -/
def displayBare : Json → String
  | .str s => s
  | v => v.display

end Json

end RouteContract
