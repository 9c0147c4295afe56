import RouteContract.Pattern.Basic
import RouteContract.Text.Blank
import RouteContract.Text.Unicode.Alphanumeric
import RouteContract.Text.Unicode.Decimal
import RouteContract.Text.Unicode.LetterCase

/-!
# What one character matches

Whether a character is one that a literal, a class or the dot of a pattern stands for. When letter
case is ignored, characters are compared by their lower case; a few lower-case letters that share
their upper case, such as the two small sigmas, count as one another.
-/

namespace RouteContract.Pattern

set_option autoImplicit false

open Text

/-! ## Classes -/

/-- Whether a character belongs to a named class. -/
def Category.holds (flags : Flags) (category : Category) (c : Char) : Bool :=
  match category with
  | .digit => if flags.ascii then c.isDigit else Unicode.isDecimal c
  | .space =>
      if flags.ascii then c == ' ' || (0x09 ≤ c.toNat && c.toNat ≤ 0x0D) else isBlank c
  | .word =>
      c == '_' || (if flags.ascii then c.isAlphanum else Unicode.isAlphanumeric c)

/-! ## Letter case -/

/-- Lower-case letters and the other lower-case letters that share their upper case. -/
def caseTwins : List (Nat × List Nat) := [
    (0x0069, [0x0131]), (0x0073, [0x017f]), (0x00b5, [0x03bc]), (0x0131, [0x0069]),
    (0x017f, [0x0073]), (0x0345, [0x03b9, 0x1fbe]), (0x0390, [0x1fd3]), (0x03b0, [0x1fe3]),
    (0x03b2, [0x03d0]), (0x03b5, [0x03f5]), (0x03b8, [0x03d1]), (0x03b9, [0x0345, 0x1fbe]),
    (0x03ba, [0x03f0]), (0x03bc, [0x00b5]), (0x03c0, [0x03d6]), (0x03c1, [0x03f1]),
    (0x03c2, [0x03c3]), (0x03c3, [0x03c2]), (0x03c6, [0x03d5]), (0x03d0, [0x03b2]),
    (0x03d1, [0x03b8]), (0x03d5, [0x03c6]), (0x03d6, [0x03c0]), (0x03f0, [0x03ba]),
    (0x03f1, [0x03c1]), (0x03f5, [0x03b5]), (0x0432, [0x1c80]), (0x0434, [0x1c81]),
    (0x043e, [0x1c82]), (0x0441, [0x1c83]), (0x0442, [0x1c84, 0x1c85]), (0x044a, [0x1c86]),
    (0x0463, [0x1c87]), (0x1c80, [0x0432]), (0x1c81, [0x0434]), (0x1c82, [0x043e]),
    (0x1c83, [0x0441]), (0x1c84, [0x0442, 0x1c85]), (0x1c85, [0x0442, 0x1c84]), (0x1c86, [0x044a]),
    (0x1c87, [0x0463]), (0x1c88, [0xa64b]), (0x1e61, [0x1e9b]), (0x1e9b, [0x1e61]),
    (0x1fbe, [0x0345, 0x03b9]), (0x1fd3, [0x0390]), (0x1fe3, [0x03b0]), (0xa64b, [0x1c88]),
    (0xfb05, [0xfb06]), (0xfb06, [0xfb05])]

/-- The other lower-case letters that count as a given one. -/
def twinsOf (c : Nat) : List Nat :=
  match caseTwins.find? (·.1 == c) with
  | some entry => entry.2
  | none => []

/-- Whether a code point is an ASCII capital. -/
def isAsciiUpper (c : Nat) : Bool := 0x41 ≤ c && c ≤ 0x5A

/-- Whether a code point is an ASCII small letter. -/
def isAsciiLower (c : Nat) : Bool := 0x61 ≤ c && c ≤ 0x7A

/-- The lower case of a code point in the alphabet of the flags. -/
def foldCode (flags : Flags) (c : Nat) : Nat :=
  if flags.ascii || c < 0x80 then
    if isAsciiUpper c then c + 0x20 else c
  else Unicode.mapCase Unicode.lowerRuns c

/-- The upper case of a code point. -/
def raiseCode (c : Nat) : Nat :=
  if c < 0x80 then if isAsciiLower c then c - 0x20 else c
  else Unicode.mapCase Unicode.upperRuns c

/-- Whether a code point has another letter case in the alphabet of the flags. -/
def isCasedCode (flags : Flags) (c : Nat) : Bool :=
  if flags.ascii then isAsciiUpper c || isAsciiLower c
  else foldCode flags c != c || raiseCode c != c

/-- The lower-case letters that count as a given lower-case letter, itself first. -/
def foldClass (flags : Flags) (c : Nat) : List Nat :=
  if flags.ascii then [c] else c :: twinsOf c

/-- Whether a character is the one a literal stands for. -/
def matchesCode (flags : Flags) (code : Nat) (c : Char) : Bool :=
  if flags.ignoreCase && isCasedCode flags code then
    (foldClass flags (foldCode flags code)).contains (foldCode flags c.toNat)
  else c.toNat == code

/-! ## Bracketed classes -/

/-- The last code point of the basic plane. -/
def basicPlaneEnd : Nat := 0xFFFF

/-- Whether a run of letters has a member between two code points. -/
def runMeets (run : Unicode.CaseRun) (low high : Nat) : Bool :=
  let first :=
    if low ≤ run.first then run.first
    else run.first + (low - run.first + run.step - 1) / run.step * run.step
  first ≤ run.last && first ≤ high

/-- Whether a letter with another letter case lies between two code points. -/
def rangeIsCased (flags : Flags) (low high : Nat) : Bool :=
  if flags.ascii then
    (low ≤ 0x5A && 0x41 ≤ high) || (low ≤ 0x7A && 0x61 ≤ high)
  else
    (Unicode.lowerRuns ++ Unicode.upperRuns).any (runMeets · low high) ||
      (low ≤ 0x5A && 0x41 ≤ high) || (low ≤ 0x7A && 0x61 ≤ high)

/-- The code points whose lower case is a given one. -/
def unfolded (flags : Flags) (c : Nat) : List Nat :=
  let own := if foldCode flags c = c then [c] else []
  let ascii := if isAsciiLower c then [c - 0x20] else []
  if flags.ascii then own ++ ascii
  else
    own ++ ascii ++
      Unicode.lowerRuns.filterMap fun run =>
        let source := ((c : Int) - run.distance).toNat
        if 0x80 ≤ source && run.covers source && (source + run.distance : Int).toNat == c
        then some source
        else none

/-- Whether an item of a class that ignores letter case holds for a lower-case code point. Beyond
the basic plane a literal is compared as it is written and a range also by the upper case. -/
def foldedItemHolds (flags : Flags) (code : Nat) : ClassItem → Bool
  | .char c =>
      let low := foldCode flags c
      if basicPlaneEnd < low then code == c else (foldClass flags low).contains code
  | .range low high =>
      let within := fun c => low ≤ c && c ≤ high
      (code ≤ basicPlaneEnd &&
          (foldClass flags code).any fun twin =>
            (unfolded flags twin).any fun c => within c && c ≤ basicPlaneEnd) ||
        (basicPlaneEnd < high && (within code || within (raiseCode code)))
  | .category category negated => category.holds flags (Char.ofNat code) != negated

/-- Whether an item of a class holds for a character as it is. -/
def itemHolds (flags : Flags) (c : Char) : ClassItem → Bool
  | .char code => c.toNat == code
  | .range low high => low ≤ c.toNat && c.toNat ≤ high
  | .category category negated => category.holds flags c != negated

/-- Whether letter case matters for an item of a class. -/
def itemIsCased (flags : Flags) : ClassItem → Bool
  | .char code => basicPlaneEnd < code || isCasedCode flags code
  | .range low high => basicPlaneEnd < high || rangeIsCased flags low high
  | .category _ _ => false

/-- Whether a character belongs to a bracketed class. -/
def matchesSet (flags : Flags) (negated : Bool) (items : List ClassItem) (c : Char) : Bool :=
  let listed :=
    if flags.ignoreCase && items.any (itemIsCased flags) then
      items.any (foldedItemHolds flags (foldCode flags c.toNat))
    else items.any (itemHolds flags c)
  listed != negated

/-- Whether a character is one the dot stands for. -/
def matchesAny (flags : Flags) (c : Char) : Bool := flags.dotAll || c != '\n'

/-- Whether two characters are the same for a reference to a group. -/
def sameLetter (flags : Flags) (c d : Char) : Bool :=
  if flags.ignoreCase then foldCode flags c.toNat == foldCode flags d.toNat else c == d

end RouteContract.Pattern
