import RouteContract.Text.Blank

/-!
# Documentation strings

A documentation string stands indented among the code around it. Cleaned, its tabs are spaces up to
the next eighth column, its first line begins without blanks, the other lines lose the indentation
that they share, and the empty lines at both ends are gone. Its first paragraph is what stands
before the first empty line.
-/

namespace RouteContract.Sources.Docstring

set_option autoImplicit false

open RouteContract

/-- The distance between tab stops. -/
def tabWidth : Nat := 8

/-- A text with spaces for its tabs, from a column on. -/
def expandTabs : Nat → List Char → List Char
  | _, [] => []
  | column, c :: rest =>
      if c = '\t' then
        let width := tabWidth - column % tabWidth
        List.replicate width ' ' ++ expandTabs (column + width) rest
      else if c = '\n' || c = '\r' then c :: expandTabs 0 rest
      else c :: expandTabs (column + 1) rest

/-- The blanks at the beginning of a line; nothing when there is only blank. -/
def indentation? (line : List Char) : Option Nat :=
  let content := (line.dropWhile Text.isBlank).length
  if content = 0 then none else some (line.length - content)

/-- The indentation that lines share. Lines that are blank do not count. -/
def margin (lines : List (List Char)) : Nat := ((lines.filterMap indentation?).min?).getD 0

/-- The lines of a documentation string, cleaned. -/
def cleanedLines (text : List Char) : List (List Char) :=
  match Text.splitAt '\n' (expandTabs 0 text) with
  | [] => []
  | first :: others =>
      let lines := first.dropWhile Text.isBlank :: others.map (List.drop (margin others))
      let isEmpty : List Char → Bool := List.isEmpty
      (((lines.reverse.dropWhile isEmpty).reverse).dropWhile isEmpty)

/-- A documentation string, cleaned. -/
def cleaned (text : String) : String :=
  String.ofList (Text.join ['\n'] (cleanedLines text.toList))

/-- The part of a text before the first empty line. -/
def beforeEmptyLine : List Char → List Char
  | [] => []
  | '\n' :: '\n' :: _ => []
  | c :: rest => c :: beforeEmptyLine rest

/-- The first paragraph of a documentation string, if there is one. -/
def firstParagraph? (text : String) : Option String :=
  let paragraph := Text.trim (beforeEmptyLine (Text.trim (cleaned text).toList))
  if paragraph.isEmpty then none else some (String.ofList paragraph)

end RouteContract.Sources.Docstring
