import RouteContract.Text.Blank

/-!
# Path templates

A path template is a list of segments between slashes. A segment is a parameter when it is written
`:name`, `{name}` or `<name>`, and a literal text otherwise. Templates that differ only in repeated
slashes, or in one at the end, are the same template.
-/

namespace RouteContract.Route

set_option autoImplicit false

/-! ## Normal paths -/

/-- A path in which no slash follows another. -/
def collapse : List Char → List Char
  | [] => []
  | [c] => [c]
  | '/' :: '/' :: rest => collapse ('/' :: rest)
  | c :: d :: rest => c :: collapse (d :: rest)

/-- A path in normal form: trimmed, with a slash in front, without repeated slashes, and without one
at the end unless it is the only character. -/
def normalizeChars (path : List Char) : List Char :=
  let trimmed := Text.trim path
  let rooted := if trimmed.head? == some '/' then trimmed else '/' :: trimmed
  let single := collapse rooted
  if single != ['/'] && single.getLast? == some '/' then single.dropLast else single

/-- A path in normal form. -/
def normalize (path : String) : String := String.ofList (normalizeChars path.toList)

/-! ## Segments -/

/-- A segment of a template. -/
inductive Segment where
  | literal (text : List Char)
  | parameter (name : List Char)
deriving Repr, DecidableEq

/-- Characters that may begin a parameter name. -/
def isNameStart (c : Char) : Bool := c.isAlpha || c == '_'

/-- Characters that may continue a parameter name. -/
def isNamePart (c : Char) : Bool := c.isAlphanum || c == '_'

/-- Parameter names are ASCII identifiers. -/
def isName : List Char → Bool
  | [] => false
  | c :: rest => isNameStart c && rest.all isNamePart

/-- A text without the line feed at its end, if it has one. -/
def dropLineFeed (s : List Char) : List Char :=
  if s.getLast? == some '\n' then s.dropLast else s

/-- The name in a parameter segment. A line feed after it is tolerated. -/
def parameterName? (segment : List Char) : Option (List Char) :=
  let body := dropLineFeed segment
  let inner : Option (List Char) :=
    match body with
    | ':' :: name => some name
    | '{' :: rest => if rest.getLast? == some '}' then some rest.dropLast else none
    | '<' :: rest => if rest.getLast? == some '>' then some rest.dropLast else none
    | _ => none
  inner.filter isName

/-- A segment as a parameter or a literal. -/
def Segment.ofText (text : List Char) : Segment :=
  match parameterName? text with
  | some name => .parameter name
  | none => .literal text

/-- The segments of a template: the non-empty texts between the slashes of its normal form. -/
def segments (template : String) : List Segment :=
  ((Text.splitAt '/' (normalizeChars template.toList)).filter fun text => !text.isEmpty).map
    Segment.ofText

end RouteContract.Route
