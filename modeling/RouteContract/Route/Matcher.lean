import RouteContract.Pattern.Matcher
import RouteContract.Route.Template

/-!
# Path matchers

A template becomes a regular expression in which a literal segment stands for itself, whatever its
letter case, and a parameter is a named group of characters other than a slash, a hash sign and a
question mark. A matcher is stored as one text, `/source/flags`, and read back from it.
-/

namespace RouteContract.Route

set_option autoImplicit false

/-- The source of a regular expression and the letters of its flags. -/
structure Matcher where
  source : String
  flags : String
deriving Repr, DecidableEq

/-! ## From templates -/

/-- Characters that a literal segment writes with a backslash in front. -/
def isSpecial (c : Char) : Bool :=
  (0x09 ≤ c.toNat && c.toNat ≤ 0x0D) ||
    ['(', ')', '[', ']', '{', '}', '?', '*', '+', '-', '|', '^', '$', '\\', '.', '&', '~', '#',
      ' '].contains c

/-- A text as a regular expression that matches it alone. -/
def quotePattern (s : List Char) : List Char :=
  s.flatMap fun c => if isSpecial c then ['\\', c] else [c]

/-- The regular expression of a segment and the slash before it. -/
def Segment.pattern : Segment → List Char
  | .literal text => '/' :: quotePattern text
  | .parameter name => "/(?P<".toList ++ name ++ ">[^/#?]+?)".toList

/-- The matcher of a template. -/
def Matcher.ofTemplate (template : String) : Matcher :=
  let body := (segments template).flatMap Segment.pattern
  ⟨String.ofList ('^' :: body ++ "/?$".toList), "i"⟩

/-! ## Stored form -/

/-- The letters of flags. -/
def isFlagLetter (c : Char) : Bool := ['a', 'i', 'm', 's', 'u', 'x'].contains c

/-- The flags that letters stand for. -/
def flagsOf (letters : List Char) : Pattern.Flags :=
  letters.foldl (fun flags c => flags.union ((Pattern.Reader.flagOf? c).getD {})) {}

/-- A matcher as one text. -/
def Matcher.encode (m : Matcher) : String :=
  String.ofList ('/' :: m.source.toList ++ '/' :: m.flags.toList)

/-- A text cut at its last occurrence of a character. -/
def cutAtLast? (stop : Char) (s : List Char) : Option (List Char × List Char) :=
  let tail := (s.reverse).takeWhile (· != stop)
  match (s.reverse).dropWhile (· != stop) with
  | [] => none
  | _ :: front => some (front.reverse, tail.reverse)

/-- The matcher that a stored text stands for. The source runs to the last slash, and one line feed
after the flags is tolerated. -/
def Matcher.decode? (encoded : String) : Option Matcher :=
  match encoded.toList with
  | '/' :: rest =>
      match cutAtLast? '/' rest with
      | some (source, letters) =>
          let flags := dropLineFeed letters
          if flags.all isFlagLetter then some ⟨String.ofList source, String.ofList flags⟩ else none
      | none => none
  | _ => none

/-- The regular expression of a matcher. -/
def Matcher.compile (m : Matcher) : Except Pattern.ReadError Pattern :=
  Pattern.read (flagsOf m.flags.toList) m.source.toList

/-- A stored matcher has a repetition count beyond every limit; nothing else about a stored text is
an error. -/
structure HugeCount where

/-- The regular expression of a stored matcher, or nothing when the text is malformed. -/
def parsePattern (encoded : String) : Except HugeCount (Option Pattern) :=
  match Matcher.decode? encoded with
  | none => .ok none
  | some m =>
      match m.compile with
      | .ok p => .ok (some p)
      | .error .malformed => .ok none
      | .error .invalidValue => .ok none
      | .error .hugeCount => .error ⟨⟩

/-- The parameters of a path, or nothing when it does not match. -/
def matchParameters? (p : Pattern) (path : String) : Option (Table (Option String)) :=
  p.matchStart? path.toList

end RouteContract.Route
