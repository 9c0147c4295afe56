import RouteContract.Number.Binary64

/-!
# Shortest decimal texts

A finite number is written with the fewest decimal digits that read back as the same number; among
those the digits nearest to it are taken, a tie going to the even last digit. The text is positional
while the decimal point stays close to the digits and has an exponent otherwise.
-/

namespace RouteContract.Number

set_option autoImplicit false

/-! ## Digits -/

/-- The decimal digits of a number. -/
def decimalDigits (n : Nat) : List Char := Nat.toDigits 10 n

/-- The signed decimal digits of an integer. -/
def integerText (i : Int) : List Char :=
  if i < 0 then '-' :: decimalDigits i.natAbs else decimalDigits i.natAbs

/-- Decimal digits and the power of ten they are counted in. -/
structure Decimal where
  digits : Nat
  exponent : Int
deriving Repr, DecidableEq

namespace Decimal

/-- The fraction a decimal denotes. -/
def fraction (d : Decimal) : Nat × Nat :=
  if 0 ≤ d.exponent then (d.digits * Nat.pow 10 d.exponent.toNat, 1)
  else (d.digits, Nat.pow 10 (-d.exponent).toNat)

/-- Whether a decimal reads back as a magnitude. -/
def readsAs (d : Decimal) (m : Magnitude) : Bool :=
  decide (Magnitude.nearest? d.fraction.1 d.fraction.2 = some m)

end Decimal

/-- The decimal order of a positive fraction: the `k` with `10 ^ k ≤ num / den < 10 ^ (k + 1)`. -/
def decimalOrder (num den : Nat) : Int :=
  if den ≤ num then ((decimalDigits (num / den)).length : Int) - 1
  else
    -- `(den - 1) / num` has as many digits as zeros stand between the point and the first digit.
    -((decimalDigits ((den - 1) / num)).length : Int)

/-- The two neighbours of a fraction among the multiples of `10 ^ exponent`, with the remainder of
the lower one and the divisor that the remainder belongs to. -/
def neighbours (num den : Nat) (exponent : Int) : Nat × Nat × Nat :=
  let s : Nat × Nat :=
    if 0 ≤ exponent then (num, den * Nat.pow 10 exponent.toNat)
    else (num * Nat.pow 10 (-exponent).toNat, den)
  (s.1 / s.2, s.1 % s.2, s.2)

/-- The neighbour of a magnitude on a decimal grid that reads back as it; the nearer one if both do,
and the even one if both are equally near. -/
def gridDecimal? (m : Magnitude) (exponent : Int) : Option Decimal :=
  let (low, rest, unit) := neighbours m.fraction.1 m.fraction.2 exponent
  let below : Decimal := ⟨low, exponent⟩
  let above : Decimal := ⟨low + 1, exponent⟩
  match below.readsAs m, (rest != 0 && above.readsAs m) with
  | true, true =>
      if 2 * rest < unit then some below
      else if unit < 2 * rest then some above
      else if low % 2 = 0 then some below else some above
  | true, false => some below
  | false, true => some above
  | false, false => none

/-- The grids of one digit, two digits, and so on up to seventeen, finest last. -/
def gridExponents (order : Int) : List Int :=
  (List.range 17).map fun (count : Nat) => order - (count : Int)

/-- The shortest decimal of a positive magnitude. The magnitude's own digits stand in where no grid
of at most seventeen digits has a decimal that reads back. -/
def shortestDecimal (m : Magnitude) : Decimal :=
  let order := decimalOrder m.fraction.1 m.fraction.2
  match (gridExponents order).findSome? (gridDecimal? m) with
  | some d => d
  | none =>
      if 0 ≤ m.exponent then ⟨m.mantissa * Nat.pow 2 m.exponent.toNat, 0⟩
      else ⟨m.mantissa * Nat.pow 5 (-m.exponent).toNat, m.exponent⟩

/-! ## Texts -/

/-- Where a floating-point text leaves the positional form, and how it spells what has no digits. -/
structure FloatStyle where
  /-- The least decimal order that is written positionally. -/
  leastOrder : Int
  /-- The decimal order from which on an exponent is written. -/
  exponentOrder : Int
  /-- The least number of digits of an exponent. -/
  exponentDigits : Nat
  /-- The text of an infinity, without its sign. -/
  infinite : String
  /-- The text of the undefined number. -/
  undefined : String

/-- Positional from `10 ^ -4` up to `10 ^ 16`, always with a fractional part; exponents are signed
and have two digits. -/
def FloatStyle.plain : FloatStyle := ⟨-4, 16, 2, "inf", "nan"⟩

/-- The plain style with the words that a JSON text has for numbers that are not finite. -/
def FloatStyle.json : FloatStyle :=
  { FloatStyle.plain with infinite := "Infinity", undefined := "NaN" }

/-- Digits filled up on the left with zeros. -/
def padLeft (width : Nat) (digits : List Char) : List Char :=
  List.replicate (width - digits.length) '0' ++ digits

/-- Digits without the zeros at their end, and how many those were. -/
def dropZeros (digits : List Char) : List Char × Nat :=
  let kept := ((digits.reverse).dropWhile (· == '0')).reverse
  (kept, digits.length - kept.length)

/-- The text of a positive decimal. -/
def FloatStyle.decimalText (style : FloatStyle) (d : Decimal) : List Char :=
  let (digits, dropped) := dropZeros (decimalDigits d.digits)
  let exponent := d.exponent + dropped
  let order : Int := exponent + digits.length - 1
  if order < style.leastOrder || style.exponentOrder ≤ order then
    let mantissa :=
      match digits with
      | [] => ['0']
      | [c] => [c]
      | c :: rest => c :: '.' :: rest
    let sign := if order < 0 then '-' else '+'
    mantissa ++ 'e' :: sign :: padLeft style.exponentDigits (decimalDigits order.natAbs)
  else if 0 ≤ exponent then
    digits ++ List.replicate exponent.toNat '0' ++ ['.', '0']
  else if order < 0 then
    '0' :: '.' :: (List.replicate (-order - 1).toNat '0' ++ digits)
  else
    digits.take (order + 1).toNat ++ '.' :: digits.drop (order + 1).toNat

/-- The text of a number in a style. -/
def FloatStyle.text (style : FloatStyle) : Binary64 → List Char
  | .finite negative m =>
      let sign := if negative then ['-'] else []
      sign ++ (if m.mantissa = 0 then ['0', '.', '0'] else style.decimalText (shortestDecimal m))
  | .infinite negative =>
      (if negative then ['-'] else []) ++ style.infinite.toList
  | .undefined => style.undefined.toList

end RouteContract.Number
