import RouteContract.Number.Binary64

/-!
# Quantities

What an integer and a floating-point number are compared as: a rational number, or one of the two
infinities. An undefined number is comparable to nothing, itself included.
-/

namespace RouteContract.Number

set_option autoImplicit false

/-- A point of the number line, its two ends, or no point. -/
inductive Quantity where
  | finite (value : Rat)
  | infinite (negative : Bool)
  | undefined

namespace Quantity

/-- The quantity of an integer. -/
def ofInt (i : Int) : Quantity := .finite (i : Rat)

/-- The quantity of a floating-point number. -/
def ofBinary64 : Binary64 → Quantity
  | .finite negative m => .finite (if negative then -m.toRat else m.toRat)
  | .infinite negative => .infinite negative
  | .undefined => .undefined

/-- Equality of quantities; an undefined one equals nothing. -/
def equal : Quantity → Quantity → Bool
  | .finite a, .finite b => a == b
  | .infinite a, .infinite b => a == b
  | _, _ => false

/-- The strict order of quantities. -/
def less : Quantity → Quantity → Bool
  | .finite a, .finite b => decide (a < b)
  | .finite _, .infinite negative => !negative
  | .infinite negative, .finite _ => negative
  | .infinite a, .infinite b => a && !b
  | _, _ => false

/-- Less or equal. -/
def atMost (a b : Quantity) : Bool := less a b || equal a b

end Quantity

end RouteContract.Number
