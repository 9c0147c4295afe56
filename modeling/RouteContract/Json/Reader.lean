import RouteContract.Json.Basic
import RouteContract.Number.Numeral

/-!
# Reading JSON texts

A JSON text is one value with blanks around it. Beyond the standard the three words `NaN`,
`Infinity` and `-Infinity` are numbers; a number with a fraction or an exponent is a floating-point
number and any other is an integer. Of two members with one name the later value counts, at the
place of the earlier one. An integer with too many digits is refused with an error of its own.
-/

namespace RouteContract

set_option autoImplicit false

open Number

namespace Json

/-- Why a text is not read as a JSON value. -/
inductive ReadError where
  | malformed
  | integerTooLong
deriving Repr, DecidableEq

namespace Reader

/-! ## Blanks, digits and texts -/

/-- The blanks between the parts of a JSON text. -/
def isSpace (c : Char) : Bool := c == ' ' || c == '\n' || c == '\r' || c == '\t'

/-- What follows the blanks at the front. -/
def skip (s : List Char) : List Char := s.dropWhile isSpace

/-- The value of a hexadecimal digit. -/
def hexValue? (c : Char) : Option Nat :=
  if '0' ≤ c && c ≤ '9' then some (c.toNat - 0x30)
  else if 'a' ≤ c && c ≤ 'f' then some (c.toNat - 0x61 + 10)
  else if 'A' ≤ c && c ≤ 'F' then some (c.toNat - 0x41 + 10)
  else none

/-- The number that four hexadecimal digits spell, and what follows them. -/
def hexQuad? : List Char → Option (Nat × List Char)
  | a :: b :: c :: d :: rest =>
      match hexValue? a, hexValue? b, hexValue? c, hexValue? d with
      | some a, some b, some c, some d => some (((a * 16 + b) * 16 + c) * 16 + d, rest)
      | _, _, _, _ => none
  | _ => none

/-- Whether a code unit opens a pair. -/
def isHighUnit (n : Nat) : Bool := 0xD800 ≤ n && n < 0xDC00

/-- Whether a code unit closes a pair. -/
def isLowUnit (n : Nat) : Bool := 0xDC00 ≤ n && n < 0xE000

/-- A code unit by itself; one half of a pair stands for no character and becomes the replacement
character. -/
def unitChar (n : Nat) : Char :=
  if isHighUnit n || isLowUnit n then '\ufffd' else Char.ofNat n

/-- The character that an escape with four digits spells, and what follows it. Two escapes that
spell the halves of a pair are one character. -/
def escapedUnit? (s : List Char) : Option (Char × List Char) :=
  match hexQuad? s with
  | none => none
  | some (high, rest) =>
      match rest with
      | '\\' :: 'u' :: more =>
          match hexQuad? more with
          | some (low, after) =>
              if isHighUnit high && isLowUnit low then
                some (Char.ofNat (0x10000 + (high - 0xD800) * 0x400 + (low - 0xDC00)), after)
              else some (unitChar high, rest)
          | none => some (unitChar high, rest)
      | _ => some (unitChar high, rest)

/-- The character of an escape with a single letter. -/
def simpleEscape? (c : Char) : Option Char :=
  if c == '"' || c == '\\' || c == '/' then some c
  else if c == 'b' then some '\x08'
  else if c == 'f' then some '\x0c'
  else if c == 'n' then some '\n'
  else if c == 'r' then some '\r'
  else if c == 't' then some '\t'
  else none

/-- A text up to its closing mark, given the characters read so far in reverse. -/
def textBody : Nat → List Char → List Char → Except ReadError (String × List Char)
  | 0, _, _ => .error .malformed
  | fuel + 1, done, s =>
      match s with
      | [] => .error .malformed
      | '"' :: rest => .ok (String.ofList done.reverse, rest)
      | '\\' :: 'u' :: rest =>
          match escapedUnit? rest with
          | some (c, after) => textBody fuel (c :: done) after
          | none => .error .malformed
      | '\\' :: c :: rest =>
          match simpleEscape? c with
          | some d => textBody fuel (d :: done) rest
          | none => .error .malformed
      | c :: rest =>
          if c == '\\' || c.toNat < 0x20 then .error .malformed
          else textBody fuel (c :: done) rest

/-- A text after its opening mark. -/
def text (s : List Char) : Except ReadError (String × List Char) := textBody (s.length + 1) [] s

/-! ## Numbers -/

/-- The fractional part of a number, if one follows: its digits and the rest. -/
def fractionPart : List Char → List Char × List Char
  | '.' :: rest =>
      let digits := rest.takeWhile Char.isDigit
      if digits.isEmpty then ([], '.' :: rest) else (digits, rest.dropWhile Char.isDigit)
  | s => ([], s)

/-- The exponent of a number, if one follows: its value and the rest. -/
def exponentPart (s : List Char) : Option Int × List Char :=
  match s with
  | c :: rest =>
      if c == 'e' || c == 'E' then
        let (negative, body) := takeSign rest
        let digits := body.takeWhile Char.isDigit
        if digits.isEmpty then (none, s)
        else
          let n := digitsValue digits
          (some (if negative then -(n : Int) else n), body.dropWhile Char.isDigit)
      else (none, s)
  | [] => (none, s)

/-- The digits before the point: a single zero, or digits that do not begin with one. -/
def wholePart : List Char → List Char × List Char
  | '0' :: rest => (['0'], rest)
  | s => (s.takeWhile Char.isDigit, s.dropWhile Char.isDigit)

/-- A number at the front of a text, after its sign. -/
def unsignedNumber (negative : Bool) (s : List Char) : Except ReadError (Json × List Char) :=
  let (whole, afterWhole) := wholePart s
  if whole.isEmpty then .error .malformed
  else
    let (fraction, afterFraction) := fractionPart afterWhole
    let (exponent?, rest) := exponentPart afterFraction
    if fraction.isEmpty && exponent?.isNone then
      if digitLimit < whole.length then .error .integerTooLong
      else
        let n := digitsValue whole
        .ok (.int (if negative then -(n : Int) else n), rest)
    else
      let digits := whole ++ fraction
      let exponent := exponent?.getD 0 - (fraction.length : Int)
      .ok (.float (Binary64.ofDecimal negative (digitsValue digits) digits.length exponent), rest)

/-- A number at the front of a text. -/
def number : List Char → Except ReadError (Json × List Char)
  | '-' :: rest => unsignedNumber true rest
  | s => unsignedNumber false s

/-- The words that stand for values. -/
def words : List (String × Json) :=
  [("null", .null), ("true", .bool true), ("false", .bool false),
    ("NaN", .float .undefined), ("Infinity", .float (.infinite false)),
    ("-Infinity", .float (.infinite true))]

/-- What follows a word at the front of a text. -/
def afterWord? : List Char → List Char → Option (List Char)
  | [], s => some s
  | _ :: _, [] => none
  | c :: word, d :: s => if c = d then afterWord? word s else none

/-- A word or a number at the front of a text. -/
def scalar (s : List Char) : Except ReadError (Json × List Char) :=
  let meaning := words.findSome? fun entry =>
    (afterWord? entry.1.toList s).map fun rest => (entry.2, rest)
  match meaning with
  | some found => .ok found
  | none => number s

/-! ## Values -/

mutual
/-- A value at the front of a text. -/
def value : Nat → List Char → Except ReadError (Json × List Char)
  | 0, _ => .error .malformed
  | fuel + 1, s =>
      match s with
      | '"' :: rest => (text rest).map fun (t, after) => (.str t, after)
      | '[' :: rest =>
          match skip rest with
          | ']' :: after => .ok (.arr [], after)
          | inner => (items fuel inner).map fun (xs, after) => (.arr xs, after)
      | '{' :: rest =>
          match skip rest with
          | '}' :: after => .ok (.obj [], after)
          | inner => (members fuel [] inner).map fun (ms, after) => (.obj ms, after)
      | _ => scalar s

/-- The items of an array and its closing bracket, from the first item on. -/
def items : Nat → List Char → Except ReadError (List Json × List Char)
  | 0, _ => .error .malformed
  | fuel + 1, s =>
      match value fuel s with
      | .error e => .error e
      | .ok (item, after) =>
          match skip after with
          | ',' :: rest => (items fuel (skip rest)).map fun (xs, last) => (item :: xs, last)
          | ']' :: rest => .ok ([item], rest)
          | _ => .error .malformed

/-- The members of an object and its closing bracket, from the first name on, written over the
members read so far. -/
def members : Nat → Table Json → List Char → Except ReadError (Table Json × List Char)
  | 0, _, _ => .error .malformed
  | fuel + 1, done, s =>
      match s with
      | '"' :: rest =>
          match text rest with
          | .error e => .error e
          | .ok (name, afterName) =>
              match skip afterName with
              | ':' :: afterColon =>
                  match value fuel (skip afterColon) with
                  | .error e => .error e
                  | .ok (v, afterValue) =>
                      let written := Table.put done name v
                      match skip afterValue with
                      | ',' :: more => members fuel written (skip more)
                      | '}' :: last => .ok (written, last)
                      | _ => .error .malformed
              | _ => .error .malformed
      | _ => .error .malformed
end

end Reader

/-- The value a JSON text spells. -/
def read (s : List Char) : Except ReadError Json :=
  match Reader.value (2 * s.length + 2) (Reader.skip s) with
  | .error e => .error e
  | .ok (v, rest) => if (Reader.skip rest).isEmpty then .ok v else .error .malformed

end Json

end RouteContract
