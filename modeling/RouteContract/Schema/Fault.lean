/-!
# Faults of schemas

What keeps a schema from being evaluated. A fault is no verdict on the value at hand: it says that
the schema, or the way it refers to its own parts, is not usable.
-/

namespace RouteContract.Schema

set_option autoImplicit false

/-- Why a schema cannot be evaluated. -/
inductive Fault where
  /-- Something that is no schema, or no table of schemas, stands where one is needed. -/
  | notASchema
  /-- The value of a keyword is of a kind that the keyword cannot use. -/
  | wrongKind
  /-- A text that must spell an integer does not, or has too many digits. -/
  | badNumeral
  /-- A type is named that does not exist. -/
  | unknownType
  /-- A reference leads nowhere. -/
  | unresolvable
  /-- A pattern is malformed. -/
  | badPattern
  /-- A number is beyond every limit. -/
  | tooLarge
  /-- A number is to be a multiple of zero. -/
  | zeroDivisor
  /-- A chain of references comes back to itself without taking a part of the value. -/
  | endless
deriving Repr, DecidableEq

end RouteContract.Schema
