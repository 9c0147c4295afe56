import RouteContract.Number.Binary64
import RouteContract.Text.Blank
import RouteContract.Text.Unicode.Decimal

/-!
# Numerals in free text

Integers and floating-point numbers as people type them: blanks around them, a sign of either kind,
the decimal digits of any script, and single underscores between digits. An integer has a limit on
its number of digits; a longer one is refused rather than read.
-/

namespace RouteContract.Number

set_option autoImplicit false

/-- Why a text is not read as an integer. -/
inductive NumeralError where
  | malformed
  | tooLong
deriving Repr, DecidableEq

/-- The most digits an integer may be written with. -/
def digitLimit : Nat := 4300

/-- A character as numerals see it: blanks beyond ASCII are spaces, and digits of any script are the
ASCII digits. -/
def numeralChar (c : Char) : Char :=
  if c.toNat < 0x80 then c
  else if Text.isBlank c then ' '
  else
    match Text.Unicode.decimalValue? c with
    | some d => Char.ofNat (0x30 + d)
    | none => c

/-- The blanks that may stand around a numeral. -/
def isNumeralBlank (c : Char) : Bool := c == ' ' || (0x09 ≤ c.toNat && c.toNat ≤ 0x0D)

/-- A text in ASCII digits, without the blanks around it. -/
def numeralText (s : List Char) : List Char :=
  Text.dropAround isNumeralBlank (s.map numeralChar)

/-- The value of ASCII digits, most significant first. -/
def digitsValue (digits : List Char) : Nat :=
  digits.foldl (fun n c => 10 * n + (c.toNat - 0x30)) 0

/-- The sign of a numeral, true when negative, and what follows it. -/
def takeSign : List Char → Bool × List Char
  | '-' :: rest => (true, rest)
  | '+' :: rest => (false, rest)
  | s => (false, s)

/-- A text without its underscores, given whether a digit stands before it; nothing when an
underscore is not between two digits. -/
def dropUnderscores? (afterDigit : Bool) : List Char → Option (List Char)
  | [] => some []
  | '_' :: rest =>
      match rest with
      | d :: _ => if afterDigit && d.isDigit then dropUnderscores? false rest else none
      | [] => none
  | c :: rest => (dropUnderscores? c.isDigit rest).map (c :: ·)

/-! ## Integers -/

/-- The integer a text spells. -/
def readInteger (s : List Char) : Except NumeralError Int :=
  let (negative, body) := takeSign (numeralText s)
  match dropUnderscores? false body with
  | none => .error .malformed
  | some digits =>
      if digits.isEmpty || !digits.all Char.isDigit then .error .malformed
      else if digitLimit < digits.length then .error .tooLong
      else
        let n := digitsValue digits
        .ok (if negative then -(n : Int) else n)

/-! ## Floating-point numbers -/

/-- The exponent after the letter that announces it: a sign and at least one digit, to the end. -/
def readExponent? : List Char → Option Int
  | [] => some 0
  | c :: rest =>
      if c == 'e' || c == 'E' then
        let (negative, digits) := takeSign rest
        if digits.isEmpty || !digits.all Char.isDigit then none
        else some (if negative then -(digitsValue digits : Int) else digitsValue digits)
      else none

/-- An unsigned numeral with digits, an optional fractional part and an optional exponent. -/
def readUnsignedFloat? (negative : Bool) (s : List Char) : Option Binary64 :=
  let whole := s.takeWhile Char.isDigit
  let afterWhole := s.dropWhile Char.isDigit
  let (fraction, rest) :=
    match afterWhole with
    | '.' :: t => (t.takeWhile Char.isDigit, t.dropWhile Char.isDigit)
    | t => ([], t)
  let digits := whole ++ fraction
  if digits.isEmpty then none
  else
    (readExponent? rest).map fun exponent =>
      Binary64.ofDecimal negative (digitsValue digits) digits.length
        (exponent - (fraction.length : Int))

/-- The words for numbers that are not finite, in lower case. -/
def readFloatWord? (negative : Bool) (s : List Char) : Option Binary64 :=
  let word := String.ofList (s.map Char.toLower)
  if word = "inf" || word = "infinity" then some (.infinite negative)
  else if word = "nan" then some .undefined
  else none

/-- The floating-point number a text spells. -/
def readFloat? (s : List Char) : Option Binary64 :=
  let (negative, body) := takeSign (numeralText s)
  match readFloatWord? negative body with
  | some x => some x
  | none => (dropUnderscores? false body).bind (readUnsignedFloat? negative)

end RouteContract.Number
