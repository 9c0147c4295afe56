import RouteContract.Pattern.Reader
import RouteContract.Text.Blank
import RouteContract.Number.Numeral

/-!
# Formats of texts

The formats that are checked: mail addresses, calendar dates, addresses of the internet protocol in
both versions, and regular expressions. Every other format accepts every text.
-/

namespace RouteContract.Schema.Format

set_option autoImplicit false

/-- The number that ASCII digits spell, if there are so many of them and nothing else. -/
def fixedDigits? (count : Nat) (s : List Char) : Option Nat :=
  if s.length = count && s.all Char.isDigit then some (Number.digitsValue s) else none

/-! ## Dates -/

/-- Whether a year has a leap day. -/
def isLeapYear (year : Nat) : Bool :=
  year % 4 == 0 && (year % 100 != 0 || year % 400 == 0)

/-- The number of days of a month. -/
def daysInMonth (year month : Nat) : Nat :=
  if month = 2 then if isLeapYear year then 29 else 28
  else if [4, 6, 9, 11].contains month then 30 else 31

/-- A date is year, month and day with hyphens between them, and exists in the calendar. -/
def isDate (s : List Char) : Bool :=
  match Text.splitAt '-' s with
  | [y, m, d] =>
      match fixedDigits? 4 y, fixedDigits? 2 m, fixedDigits? 2 d with
      | some year, some month, some day =>
          1 ≤ year && 1 ≤ month && month ≤ 12 && 1 ≤ day && day ≤ daysInMonth year month
      | _, _, _ => false
  | _ => false

/-! ## Addresses -/

/-- A part of an address of version 4: a number up to 255 without leading zeros. -/
def isOctet (s : List Char) : Bool :=
  !s.isEmpty && s.all Char.isDigit && s.length ≤ 3 && (s == ['0'] || s.head? != some '0') &&
    Number.digitsValue s ≤ 255

/-- An address of version 4. -/
def isVersion4 (s : List Char) : Bool :=
  let parts := Text.splitAt '.' s
  parts.length == 4 && parts.all isOctet

/-- A group of an address of version 6: one to four hexadecimal digits. -/
def isGroup (s : List Char) : Bool :=
  !s.isEmpty && s.length ≤ 4 && s.all Pattern.Reader.isHexDigit

/-- The groups of an address of version 6; an address of version 4 at its end counts as two. -/
def groups? (s : List Char) : Option (List (List Char)) :=
  let parts := Text.splitAt ':' s
  if parts.length < 3 then none
  else
    let last := (parts.getLast?).getD []
    if last.contains '.' then
      if isVersion4 last then some (parts.dropLast ++ [['0'], ['0']]) else none
    else some parts

/-- An address of version 6. At most one empty group, not counting the ends, stands for the groups
that are missing; an end is empty only beside it. -/
def isVersion6 (s : List Char) : Bool :=
  if s.contains '%' || s.contains '/' then false
  else
    match groups? s with
    | none => false
    | some parts =>
        if 9 < parts.length then false
        else
          let inner := (parts.drop 1).dropLast
          match inner.countP List.isEmpty with
          | 0 => parts.length == 8 && parts.all isGroup
          | 1 =>
              let front := 1 + (inner.takeWhile fun g => !g.isEmpty).length
              let high := parts.take front
              let low := parts.drop (front + 1)
              let high := if high == [[]] then [] else high
              let low := if low == [[]] then [] else low
              high.all isGroup && low.all isGroup && high.length + low.length < 8
          | _ => false

/-! ## All formats -/

/-- Whether a text has a format. Only a regular expression can be so wrong that the question itself
fails. -/
def holds (format : String) (s : List Char) : Except Pattern.ReadError Bool :=
  if format = "email" || format = "idn-email" then .ok (s.contains '@')
  else if format = "date" then .ok (isDate s)
  else if format = "ipv4" then .ok (isVersion4 s)
  else if format = "ipv6" then .ok (isVersion6 s)
  else if format = "regex" then
    match Pattern.read {} s with
    | .ok _ => .ok true
    | .error .malformed => .ok false
    | .error e => .error e
  else .ok true

end RouteContract.Schema.Format
