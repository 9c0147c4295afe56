import RouteContract.Data.Table
import RouteContract.Text.Blank

/-!
# Files of assignments

A file of assignments gives values to names, one `name=value` after the other. A value may stand in
quotation marks and then goes on over several lines; without them it ends with its line or at a
comment. A name without an equals sign has no value. A line that is no assignment is passed over.
Inside a value `${name}` stands for a value given before, and `${name:-text}` has a text for when
there is none.
-/

namespace RouteContract.Settings

set_option autoImplicit false

open RouteContract

namespace Assignment

/-! ## Characters -/

/-- Blanks inside a line. -/
def isInlineBlank (c : Char) : Bool := Text.isBlank c && c != '\n'

/-- A text with a line feed for each break of a line. -/
def withLineFeeds : List Char → List Char
  | [] => []
  | '\r' :: '\n' :: rest => '\n' :: withLineFeeds rest
  | '\r' :: rest => '\n' :: withLineFeeds rest
  | c :: rest => c :: withLineFeeds rest

/-- What follows a line. -/
def afterLine (s : List Char) : List Char := (s.dropWhile (· != '\n')).drop 1

/-! ## Names and values -/

/-- What stands up to a closing mark, and what follows it. A backslash keeps a mark from closing,
unless no later one does. -/
def untilMark (mark : Char) : List Char → Option (List Char × List Char)
  | [] => none
  | '\\' :: c :: rest =>
      if c = mark then
        match untilMark mark rest with
        | some (value, after) => some ('\\' :: mark :: value, after)
        | none => some (['\\'], rest)
      else (untilMark mark (c :: rest)).map fun found => ('\\' :: found.1, found.2)
  | c :: rest =>
      if c = mark then some ([], rest)
      else (untilMark mark rest).map fun found => (c :: found.1, found.2)

/-- The character that an escape stands for, inside single or double marks. -/
def escaped? (mark c : Char) : Option Char :=
  if c = '\\' || c = '\'' then some c
  else if mark = '\'' then none
  else
    match c with
    | '"' => some '"'
    | 'a' => some '\x07'
    | 'b' => some '\x08'
    | 'f' => some '\x0c'
    | 'n' => some '\n'
    | 'r' => some '\r'
    | 't' => some '\t'
    | 'v' => some '\x0b'
    | _ => none

/-- A value in marks without its escapes. -/
def unescape (mark : Char) : List Char → List Char
  | [] => []
  | '\\' :: c :: rest =>
      match escaped? mark c with
      | some d => d :: unescape mark rest
      | none => '\\' :: unescape mark (c :: rest)
  | c :: rest => c :: unescape mark rest

/-- A value without marks: a comment after a blank is cut off. -/
def cutComment : List Char → List Char
  | [] => []
  | c :: rest =>
      if Text.isBlank c && ((c :: rest).dropWhile Text.isBlank).head? == some '#' then []
      else c :: cutComment rest

/-- A name at the beginning of a text: nothing for a comment. -/
def takeName (s : List Char) : Option (Option (List Char) × List Char) :=
  match s with
  | '#' :: _ => some (none, s)
  | '\'' :: rest =>
      let name := rest.takeWhile (· != '\'')
      match rest.dropWhile (· != '\'') with
      | _ :: after => if name.isEmpty then none else some (some name, after)
      | [] => none
  | _ =>
      let isPart (c : Char) : Bool := c != '=' && c != '#' && !Text.isBlank c
      let name := s.takeWhile isPart
      if name.isEmpty then none else some (some name, s.dropWhile isPart)

/-- A value at the beginning of a text. -/
def takeValue (s : List Char) : Option (List Char × List Char) :=
  match s with
  | '\'' :: rest => (untilMark '\'' rest).map fun found => (unescape '\'' found.1, found.2)
  | '"' :: rest => (untilMark '"' rest).map fun found => (unescape '"' found.1, found.2)
  | _ =>
      some
        (Text.dropRightWhile Text.isBlank (cutComment (s.takeWhile (· != '\n'))),
          s.dropWhile (· != '\n'))

/-! ## Assignments -/

/-- A text without the word that may stand before an assignment. -/
def dropExport (s : List Char) : List Char :=
  let word := "export".toList
  if word.isPrefixOf s && ((s.drop word.length).head?.any isInlineBlank) then
    (s.drop word.length).dropWhile isInlineBlank
  else s

/-- What follows an assignment: a comment may stand before the end of its line. -/
def endOfAssignment? (s : List Char) : Option (List Char) :=
  let blankless := s.dropWhile isInlineBlank
  let rest := if blankless.head? == some '#' then blankless.dropWhile (· != '\n') else blankless
  match rest with
  | [] => some []
  | '\n' :: after => some after
  | _ => none

/-- An assignment at the beginning of a text that does not begin with a blank, and what follows it.
Nothing is assigned by a comment, nor by a line that is no assignment. -/
def take (s : List Char) : Option (String × Option String) × List Char :=
  let body := dropExport s
  match takeName body with
  | none => (none, afterLine body)
  | some (name, afterName) =>
      match afterName.dropWhile isInlineBlank with
      | '=' :: rest =>
          let begin := rest.dropWhile isInlineBlank
          match takeValue begin with
          | none => (none, afterLine begin)
          | some (value, afterValue) =>
              match endOfAssignment? afterValue with
              | none => (none, afterLine afterValue)
              | some after =>
                (name.map fun n => (String.ofList n, some (String.ofList value)), after)
      | rest =>
          match endOfAssignment? rest with
          | none => (none, afterLine rest)
          | some after => (name.map fun n => (String.ofList n, none), after)

/-- The assignments of a text; a bound on their number is given. -/
def listFrom : Nat → List Char → List (String × Option String)
  | 0, _ => []
  | bound + 1, s =>
      match s.dropWhile Text.isBlank with
      | [] => []
      | c :: rest =>
          let (found, after) := take (c :: rest)
          found.toList ++ listFrom bound after

/-! ## Values inside values -/

/-- A part of a value: a text, or the value of a name with a default. -/
inductive Part where
  | text (c : Char)
  | value (name : List Char) (default : List Char)

/-- A reference at the beginning of a text, behind its opening mark. -/
def takeReference (s : List Char) : Option (Part × List Char) :=
  let isNamePart (c : Char) : Bool := c != '}' && c != ':'
  let name := s.takeWhile isNamePart
  match s.dropWhile isNamePart with
  | '}' :: after => some (.value name [], after)
  | ':' :: '-' :: rest =>
      match rest.dropWhile (· != '}') with
      | _ :: after => some (.value name (rest.takeWhile (· != '}')), after)
      | [] => none
  | _ => none

/-- The parts of a value; a bound on their number is given. -/
def partsFrom : Nat → List Char → List Part
  | 0, _ => []
  | _ + 1, [] => []
  | bound + 1, c :: rest =>
      match c, rest with
      | '$', '{' :: body =>
          match takeReference body with
          | some (part, after) => part :: partsFrom bound after
          | none => .text c :: partsFrom bound rest
      | _, _ => .text c :: partsFrom bound rest

/-- What a part stands for, given the values of names. -/
def Part.resolve (values : Table (Option String)) : Part → List Char
  | .text c => [c]
  | .value name default =>
      match Table.get? values (String.ofList name) with
      | some (some v) => v.toList
      | some none => []
      | none => default

/-- A value with its references replaced. -/
def resolve (values : Table (Option String)) (value : String) : String :=
  String.ofList ((partsFrom value.length value.toList).flatMap (Part.resolve values))

end Assignment

/-- The values that a file assigns, given those of the names around it. A later assignment counts
over an earlier one, also in references. -/
def assignments (around : Table String) (text : String) : Table (Option String) :=
  let s := Assignment.withLineFeeds text.toList
  let outer := Table.mapValues some around
  (Assignment.listFrom (s.length + 1) s).foldl
    (fun done a =>
      Table.put done a.1 (a.2.map (Assignment.resolve (Table.putAll outer done))))
    []

end RouteContract.Settings
