/-!
# Binary floating-point numbers

Numbers of the 64-bit binary format, kept as what they denote: a sign, a mantissa below `2 ^ 53` and
a power of two, in the one canonical form each finite number has. All operations are exact rational
arithmetic followed by one rounding to the nearest number, a tie going to the even mantissa.
-/

namespace RouteContract.Number

set_option autoImplicit false

/-! ## Magnitudes -/

/-- The smallest exponent of a magnitude. -/
def minExponent : Int := -1074

/-- The largest exponent of a magnitude. -/
def maxExponent : Int := 971

/-- A mantissa and an exponent in canonical form: the mantissa has 53 bits unless the exponent is
the smallest one. -/
def IsCanonical (mantissa : Nat) (exponent : Int) : Prop :=
  mantissa < Nat.pow 2 53 ∧ minExponent ≤ exponent ∧ exponent ≤ maxExponent ∧
    (Nat.pow 2 52 ≤ mantissa ∨ exponent = minExponent)

instance (mantissa : Nat) (exponent : Int) : Decidable (IsCanonical mantissa exponent) := by
  unfold IsCanonical
  infer_instance

/-- A finite non-negative number, `mantissa * 2 ^ exponent`. -/
structure Magnitude where
  mantissa : Nat
  exponent : Int
  canonical : IsCanonical mantissa exponent
deriving DecidableEq

namespace Magnitude

/-- Nothing. -/
def zero : Magnitude := ⟨0, minExponent, by decide⟩

/-- The fraction a magnitude denotes, as numerator and denominator. -/
def fraction (m : Magnitude) : Nat × Nat :=
  if 0 ≤ m.exponent then (m.mantissa * Nat.pow 2 m.exponent.toNat, 1)
  else (m.mantissa, Nat.pow 2 (-m.exponent).toNat)

/-- The denominator of a magnitude is a power of two. -/
theorem fraction_snd_pos (m : Magnitude) : 0 < m.fraction.2 := by
  unfold fraction
  split
  · exact Nat.one_pos
  · exact Nat.two_pow_pos _

/-- A magnitude as a rational number. -/
def toRat (m : Magnitude) : Rat := (m.fraction.1 : Rat) / (m.fraction.2 : Rat)

/-- Whether a magnitude is a whole number. -/
def isWhole (m : Magnitude) : Bool := m.fraction.1 % m.fraction.2 == 0

/-- The whole part of a magnitude. -/
def whole (m : Magnitude) : Nat := m.fraction.1 / m.fraction.2

end Magnitude

/-! ## Rounding -/

/-- A quotient rounded to the nearest natural number, a tie going to the even one. -/
def roundDivision (num den : Nat) : Nat :=
  let q := num / den
  let r := num % den
  if 2 * r < den then q
  else if den < 2 * r then q + 1
  else if q % 2 = 0 then q else q + 1

/-- A fraction divided by a power of two. -/
def scaled (num den : Nat) (exponent : Int) : Nat × Nat :=
  if 0 ≤ exponent then (num, den * Nat.pow 2 exponent.toNat)
  else (num * Nat.pow 2 (-exponent).toNat, den)

/-- The exponent at which a positive fraction has a mantissa of 53 bits, or the smallest exponent.
-/
def exponentOf (num den : Nat) : Int :=
  let guess : Int := (num.log2 : Int) - (den.log2 : Int) - 52
  let s := scaled num den guess
  max (if s.1 < Nat.pow 2 52 * s.2 then guess - 1 else guess) minExponent

/-- The magnitude nearest to a fraction, or nothing when that lies beyond the largest one. -/
def Magnitude.nearest? (num den : Nat) : Option Magnitude :=
  if num = 0 then some Magnitude.zero
  else
    let e := exponentOf num den
    let s := scaled num den e
    let m := roundDivision s.1 s.2
    let (m, e) := if m = Nat.pow 2 53 then (Nat.pow 2 52, e + 1) else (m, e)
    if h : IsCanonical m e then some ⟨m, e, h⟩ else none

/-! ## The numbers -/

/-- A number of the 64-bit binary format. -/
inductive Binary64 where
  | finite (negative : Bool) (magnitude : Magnitude)
  | infinite (negative : Bool)
  | undefined
deriving DecidableEq

namespace Binary64

/-- The number nearest to a signed fraction; beyond the largest number it is infinite. -/
def nearest (negative : Bool) (num den : Nat) : Binary64 :=
  match Magnitude.nearest? num den with
  | some m => .finite negative m
  | none => .infinite negative

/-- Decimal orders of magnitude from which on every number is infinite. -/
def hugeOrder : Int := 310

/-- Decimal orders of magnitude up to which every number is zero. -/
def tinyOrder : Int := -330

/-- The number nearest to `digits * 10 ^ exponent`, where `count` digits were written. -/
def ofDecimal (negative : Bool) (digits : Nat) (count : Nat) (exponent : Int) : Binary64 :=
  if digits = 0 then .finite negative Magnitude.zero
  else if (Nat.log2 digits : Int) / 4 + exponent > hugeOrder then .infinite negative
  else if (count : Int) + exponent < tinyOrder then .finite negative Magnitude.zero
  else if 0 ≤ exponent then nearest negative (digits * Nat.pow 10 exponent.toNat) 1
  else nearest negative digits (Nat.pow 10 (-exponent).toNat)

/-- The number nearest to an integer. -/
def ofInt (i : Int) : Binary64 := nearest (i < 0) i.natAbs 1

/-- The rational number a finite number denotes. -/
def toRat? : Binary64 → Option Rat
  | .finite negative m => some (if negative then -m.toRat else m.toRat)
  | .infinite _ => none
  | .undefined => none

/-- Whether a number is finite and whole. -/
def isWhole : Binary64 → Bool
  | .finite _ m => m.isWhole
  | .infinite _ => false
  | .undefined => false

/-- The whole part of a finite number, toward zero. -/
def whole? : Binary64 → Option Int
  | .finite negative m => some (if negative then -(m.whole : Int) else m.whole)
  | .infinite _ => none
  | .undefined => none

/-- Whether a number is finite. -/
def isFinite : Binary64 → Bool
  | .finite _ _ => true
  | .infinite _ => false
  | .undefined => false

/-- Whether a number is a zero of either sign. -/
def isZero : Binary64 → Bool
  | .finite _ m => m.mantissa == 0
  | .infinite _ => false
  | .undefined => false

/-- Whether a number has the negative sign. -/
def isNegative : Binary64 → Bool
  | .finite negative _ => negative
  | .infinite negative => negative
  | .undefined => false

/-- The quotient of two numbers, or nothing when the divisor is zero. -/
def divide? (a b : Binary64) : Option Binary64 :=
  if b.isZero then none
  else
    let negative := a.isNegative != b.isNegative
    some <|
      match a, b with
      | .undefined, _ => .undefined
      | _, .undefined => .undefined
      | .infinite _, .infinite _ => .undefined
      | .infinite _, .finite _ _ => .infinite negative
      | .finite _ _, .infinite _ => .finite negative Magnitude.zero
      | .finite _ m, .finite _ n =>
          nearest negative (m.fraction.1 * n.fraction.2) (m.fraction.2 * n.fraction.1)

end Binary64

end RouteContract.Number
