import RouteContract.Json.Reader
import RouteContract.Route.Template

/-!
# Documentation texts

The documentation of a property is free text followed by tags. The free text becomes a description;
a tag `@name value` becomes a schema keyword with the value that its text spells as JSON, and a tag
without text becomes true. A value may go on over several lines. A value that is no JSON text is
dropped.
-/

namespace RouteContract.Documentation

set_option autoImplicit false

/-! ## Tags -/

/-- A tag and the text behind it. -/
structure Tag where
  name : List Char
  text : List Char
deriving Repr, DecidableEq

/-- The tag that a line begins, if it begins one. -/
def Tag.ofLine? : List Char → Option Tag
  | '@' :: c :: rest =>
      if Route.isNameStart c then
        some ⟨c :: rest.takeWhile Route.isNamePart, Text.trim (rest.dropWhile Route.isNamePart)⟩
      else none
  | _ => none

/-- The parts of a documentation text: its free lines and its tags, both in order. -/
structure Parts where
  description : List (List Char)
  tags : List Tag

/-- The parts after one more line. A line without a tag goes on with the last tag, or with the free
text while there is no tag. -/
def Parts.addLine (parts : Parts) (line : List Char) : Parts :=
  match Tag.ofLine? line with
  | some tag => { parts with tags := parts.tags ++ [tag] }
  | none =>
      match parts.tags.getLast? with
      | some last =>
          { parts with tags := parts.tags.dropLast ++ [{ last with text := last.text ++ line }] }
      | none => { parts with description := parts.description ++ [line] }

/-- The parts of a documentation text. -/
def Parts.ofText (text : List Char) : Parts :=
  ((Text.lines (Text.trim text)).map Text.trim).foldl Parts.addLine ⟨[], []⟩

/-! ## Values -/

/-- A tag holds an integer with too many digits. -/
inductive ReadError where
  | integerTooLong
deriving Repr, DecidableEq

/-- The value of a tag; nothing when its text spells none. -/
def Tag.value? (tag : Tag) : Except ReadError (Option Json) :=
  if tag.text.isEmpty then .ok (some (.bool true))
  else
    match Json.read tag.text with
    | .ok v => .ok (some v)
    | .error .malformed => .ok none
    | .error .integerTooLong => .error .integerTooLong

/-- The tags written over annotations, in order. -/
def writeTags (done : Table Json) : List Tag → Except ReadError (Table Json)
  | [] => .ok done
  | tag :: rest =>
      match tag.value? with
      | .error e => .error e
      | .ok none => writeTags done rest
      | .ok (some v) => writeTags (Table.put done (String.ofList tag.name) v) rest

/-- The annotations in a documentation text. -/
def annotationsOf (text : String) : Except ReadError (Table Json) :=
  let parts := Parts.ofText text.toList
  let description := Text.trim (Text.join ['\n'] parts.description)
  writeTags
    (if description.isEmpty then [] else [("description", .str (String.ofList description))])
    parts.tags

/-! ## Merging -/

/-- Several sets of annotations as one, later ones over earlier ones. -/
def mergeAnnotations (sources : List (Table Json)) : Table Json := sources.foldl Table.putAll []

/-- The annotations among several values: those that are objects, merged. -/
def collectAnnotations (values : List Json) : Table Json :=
  mergeAnnotations (values.filterMap Json.members?)

end RouteContract.Documentation
