import RouteContract.Json.Basic
import RouteContract.Number.Numeral
import RouteContract.Pointer

/-!
# Reading fields

Contracts and settings are read from documents field by field. A field accepts the values of its own
kind and some that can only mean one of them, such as the text of a number. Reading goes on after a
field that is wrong, so that all issues of a document are known at once.
-/

namespace RouteContract

set_option autoImplicit false

open Number Pointer

/-- What is wrong with a field. -/
inductive IssueKind where
  | missing
  | stringType
  | intType
  | intParsing
  | intParsingSize
  | intFromFloat
  | finiteNumber
  | boolType
  | boolParsing
  | dictType
  | tupleType
  | listType
  | modelType
  | enumeration
  | pathType
deriving Repr, DecidableEq

/-- The name of an issue in a report. -/
def IssueKind.name : IssueKind → String
  | .missing => "missing"
  | .stringType => "string_type"
  | .intType => "int_type"
  | .intParsing => "int_parsing"
  | .intParsingSize => "int_parsing_size"
  | .intFromFloat => "int_from_float"
  | .finiteNumber => "finite_number"
  | .boolType => "bool_type"
  | .boolParsing => "bool_parsing"
  | .dictType => "dict_type"
  | .tupleType => "tuple_type"
  | .listType => "list_type"
  | .modelType => "model_type"
  | .enumeration => "enum"
  | .pathType => "path_type"

/-- An issue and the place of the field that has it. -/
structure Issue where
  place : List Step
  kind : IssueKind

/-- A step of a place as it is reported. -/
def stepJson : Step → Json
  | .key name => .str name
  | .index position => .int position

/-- An issue as it is reported. -/
def Issue.toJson (i : Issue) : Json :=
  .obj [("loc", .arr (i.place.map stepJson)), ("type", .str i.kind.name)]

/-- An issue further inside. -/
def Issue.under (step : Step) (i : Issue) : Issue := { i with place := step :: i.place }

/-- What a value is read as, or the issues it has. -/
abbrev Reading (α : Type) := Except (List Issue) α

/-- A single issue at the place of the value itself. -/
def Reading.fail {α : Type} (kind : IssueKind) : Reading α := .error [⟨[], kind⟩]

namespace Reading

/-! ## Kinds of values -/

/-- A text; nothing else is one. -/
def text : Json → Reading String
  | .str s => .ok s
  | _ => .fail .stringType

/-- A text, or nothing. -/
def nullableText : Json → Reading (Option String)
  | .null => .ok none
  | v => (text v).map some

/-- An object. -/
def table : Json → Reading (Table Json)
  | .obj members => .ok members
  | _ => .fail .dictType

/-- Blanks that may stand around the text of an integer. -/
def isOuterBlank (c : Char) : Bool := Text.isBlank c && !(0x1C ≤ c.toNat && c.toNat ≤ 0x1F)

/-- The digits of the text of an integer: a fractional part of zeros is left out, and so are single
underscores between digits. -/
def integerDigits? (s : List Char) : Option (List Char) :=
  let whole := s.takeWhile (· != '.')
  let fraction := (s.dropWhile (· != '.')).drop 1
  if !fraction.all (· == '0') then none
  else
    match dropUnderscores? false whole with
    | some digits => if digits.isEmpty || !digits.all Char.isDigit then none else some digits
    | none => none

/-- The integer that a text spells. -/
def integerOfText (s : String) : Reading Int :=
  let (negative, body) := takeSign (Text.dropAround isOuterBlank s.toList)
  match integerDigits? body with
  | none => .fail .intParsing
  | some digits =>
      if digitLimit < digits.length then .fail .intParsingSize
      else
        let n := digitsValue digits
        .ok (if negative then -(n : Int) else n)

/-- The bound on floating-point numbers that are read as integers. -/
def wordBound : Int := 0x8000000000000000

/-- An integer: a whole number, a boolean, or a text that spells one. -/
def integer : Json → Reading Int
  | .int i => .ok i
  | .bool b => .ok (if b then 1 else 0)
  | .float x =>
      match x.whole? with
      | none => .fail .finiteNumber
      | some i =>
          if !x.isWhole then .fail .intFromFloat
          else if -wordBound < i && i < wordBound then .ok i
          else .fail .intParsingSize
  | .str s => integerOfText s
  | _ => .fail .intType

/-- The words for false and true. -/
def booleanWords : List (String × Bool) :=
  [("0", false), ("off", false), ("f", false), ("false", false), ("n", false), ("no", false),
    ("1", true), ("on", true), ("t", true), ("true", true), ("y", true), ("yes", true)]

/-- A boolean: a zero or a one, or one of the words for them in any letter case. -/
def boolean : Json → Reading Bool
  | .bool b => .ok b
  | .int i => if i = 0 then .ok false else if i = 1 then .ok true else .fail .boolParsing
  | .float x =>
      if x.isWhole && x.whole? == some 0 then .ok false
      else if x.isWhole && x.whole? == some 1 then .ok true
      else .fail .boolType
  | .str s =>
      match Table.get? booleanWords (String.ofList (s.toList.map Char.toLower)) with
      | some b => .ok b
      | none => .fail .boolParsing
  | _ => .fail .boolType

/-! ## Fields of an object -/

/-- The value of a field under the first of its names that is present, with that name. -/
def find? (members : Table Json) : List String → Option (String × Json)
  | [] => none
  | name :: rest =>
      match Table.get? members name with
      | some v => some (name, v)
      | none => find? members rest

/-- A field that is read while the issues of the fields before it are kept. -/
structure Result (α : Type) where
  value : α
  issues : List Issue

/-- Read a field that may be missing. Where it is wrong the default stands in, and the issues say
so. -/
def defaulted {α : Type} (members : Table Json) (names : List String) (default : α)
    (read : Json → Reading α) : Result α :=
  match find? members names with
  | none => ⟨default, []⟩
  | some (name, v) =>
      match read v with
      | .ok x => ⟨x, []⟩
      | .error issues => ⟨default, issues.map (·.under (.key name))⟩

/-- Read a field that must be there. -/
def needed {α : Type} (members : Table Json) (names : List String) (default : α)
    (read : Json → Reading α) : Result α :=
  match find? members names with
  | none => ⟨default, [⟨(names.head?.map Step.key).toList, .missing⟩]⟩
  | some _ => defaulted members names default read

/-- The items of a list, each read by itself. -/
def itemsFrom {α : Type} (read : Json → Reading α) : Nat → List Json → Reading (List α)
  | _, [] => .ok []
  | i, v :: rest =>
      match read v, itemsFrom read (i + 1) rest with
      | .ok x, .ok xs => .ok (x :: xs)
      | .ok _, .error more => .error more
      | .error issues, .ok _ => .error (issues.map (·.under (.index i)))
      | .error issues, .error more => .error (issues.map (·.under (.index i)) ++ more)

end Reading

end RouteContract
