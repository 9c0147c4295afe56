import RouteContract.Data.Table

/-!
# Patterns

The syntax tree of a regular expression. A pattern is read once into a term and a set of flags; what
a term matches is decided by `Pattern.Matcher`.
-/

namespace RouteContract

set_option autoImplicit false

namespace Pattern

/-- The switches of a pattern. Both alphabets may be asked for while a pattern is read; a pattern
that is read ends up with one of them. -/
structure Flags where
  /-- The classes and the letter case of ASCII alone. -/
  ascii : Bool := false
  /-- The classes and the letter case of Unicode. -/
  unicode : Bool := false
  ignoreCase : Bool := false
  /-- The anchors `^` and `$` also hold at inner line breaks. -/
  multiline : Bool := false
  /-- The dot also matches a line break. -/
  dotAll : Bool := false
  /-- Blanks and comments in the pattern are skipped. -/
  verbose : Bool := false
  /-- Repetitions are refused. -/
  template : Bool := false
deriving Repr, DecidableEq

/-- Both sets of switches together. -/
def Flags.union (a b : Flags) : Flags :=
  ⟨a.ascii || b.ascii, a.unicode || b.unicode, a.ignoreCase || b.ignoreCase,
    a.multiline || b.multiline, a.dotAll || b.dotAll, a.verbose || b.verbose,
    a.template || b.template⟩

/-- The switches of the first set that the second set lacks. -/
def Flags.without (a b : Flags) : Flags :=
  ⟨a.ascii && !b.ascii, a.unicode && !b.unicode, a.ignoreCase && !b.ignoreCase,
    a.multiline && !b.multiline, a.dotAll && !b.dotAll, a.verbose && !b.verbose,
    a.template && !b.template⟩

/-- Whether two sets share a switch. -/
def Flags.meets (a b : Flags) : Bool :=
  (a.ascii && b.ascii) || (a.unicode && b.unicode) || (a.ignoreCase && b.ignoreCase) ||
    (a.multiline && b.multiline) || (a.dotAll && b.dotAll) || (a.verbose && b.verbose) ||
    (a.template && b.template)

/-- The switches inside a group that turns some on and some off. A group that names an alphabet
replaces the one around it. -/
def Flags.scoped (outer added removed : Flags) : Flags :=
  let base :=
    if added.ascii || added.unicode then { outer with ascii := false, unicode := false } else outer
  (base.union added).without removed

/-- Named classes of characters. -/
inductive Category where
  | digit
  | space
  | word
deriving Repr, DecidableEq

/-- What a bracketed class lists. Characters are code points, so that a pattern may name one that no
text contains. -/
inductive ClassItem where
  | char (code : Nat)
  | range (low high : Nat)
  | category (category : Category) (negated : Bool)
deriving Repr, DecidableEq

/-- Conditions on a position. -/
inductive Anchor where
  | lineStart
  | lineEnd
  | textStart
  | textEnd
  | boundary
  | nonBoundary
deriving Repr, DecidableEq

/-- Which number of repetitions is tried first, and whether another is tried later. -/
inductive Greed where
  | greedy
  | reluctant
  | possessive
deriving Repr, DecidableEq

/-- The tree of a regular expression. -/
inductive Term where
  | char (code : Nat)
  | any
  | set (negated : Bool) (items : List ClassItem)
  | anchor (anchor : Anchor)
  | sequence (terms : List Term)
  | choice (terms : List Term)
  | repetition (greed : Greed) (least : Nat) (most : Option Nat) (body : Term)
  | capture (index : Nat) (body : Term)
  | scope (added removed : Flags) (body : Term)
  | atomic (body : Term)
  | lookAhead (negated : Bool) (body : Term)
  | lookBehind (negated : Bool) (width : Nat) (body : Term)
  | backreference (index : Nat)
  | conditional (index : Nat) (present absent : Term)

/-- Why a text is not a pattern. -/
inductive ReadError where
  /-- The text breaks the syntax. -/
  | malformed
  /-- A repetition count is larger than any that is supported. -/
  | hugeCount
  /-- A repetition count has too many digits, or the flags contradict one another. -/
  | invalidValue
deriving Repr, DecidableEq

end Pattern

/-- A regular expression ready to be matched. -/
structure Pattern where
  term : Pattern.Term
  flags : Pattern.Flags
  /-- The named groups in the order in which they open, with their numbers. -/
  names : Table Nat

end RouteContract
