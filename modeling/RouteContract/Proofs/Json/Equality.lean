import Mathlib.Data.Rat.Defs
import RouteContract.Json.Basic

/-!
# Equality of scalar values

A text equals itself only, a boolean equals itself only, and a number equals the numbers of the same
quantity. Numbers that are numerically equal therefore equal the same values
(`equal_congr_of_numericallyEqual`).
-/

set_option autoImplicit false

namespace RouteContract.Json

open Number

/-- A value is a number. -/
def IsNumber (v : Json) : Prop := v.quantity?.isSome = true

theorem equal_str_iff {a : String} {v : Json} : equal (.str a) v = true ↔ v = .str a := by
  rw [equal, equalBy]
  cases v with
  | str b =>
      rw [equalScalars, beq_iff_eq, Json.str.injEq]
      exact eq_comm
  | null | bool b | int i | float x | arr items | obj members => simp [equalScalars, quantity?]

theorem equal_bool_iff {a : Bool} {v : Json} : equal (.bool a) v = true ↔ v = .bool a := by
  rw [equal, equalBy]
  cases v with
  | bool b =>
      rw [equalScalars, beq_iff_eq, Json.bool.injEq]
      exact eq_comm
  | null | str s | int i | float x | arr items | obj members => simp [equalScalars, quantity?]

/-- A number is compared by its quantity. -/
theorem equalBy_number {quantity : Json → Option Quantity} {v : Json} (number : IsNumber v)
    (w : Json) :
    equalBy quantity v w =
      match quantity v, quantity w with
      | some p, some q => p.equal q
      | _, _ => false := by
  cases v with
  | int i => cases w <;> rw [equalBy] <;> rfl
  | float x => cases w <;> rw [equalBy] <;> rfl
  | null | bool b | str s | arr items | obj members => simp [IsNumber, quantity?] at number

theorem count?_of_isNumber {v : Json} (number : IsNumber v) : v.count? = v.quantity? := by
  cases v with
  | bool b => simp [IsNumber, quantity?] at number
  | null | int i | float x | str s | arr items | obj members => rfl

theorem eq_of_equal {p q : Quantity} (h : p.equal q = true) : p = q := by
  cases p with
  | finite a =>
      cases q with
      | finite b => exact congrArg Quantity.finite (by simpa [Quantity.equal] using h)
      | infinite b | undefined => simp [Quantity.equal] at h
  | infinite a =>
      cases q with
      | infinite b => exact congrArg Quantity.infinite (by simpa [Quantity.equal] using h)
      | finite b | undefined => simp [Quantity.equal] at h
  | undefined => simp [Quantity.equal] at h

/-- What equals a number is a number. -/
theorem isNumber_of_equal {v w : Json} (number : IsNumber v) (h : equal v w = true) :
    IsNumber w := by
  rw [equal, equalBy_number number] at h
  rw [IsNumber]
  cases found : quantity? w with
  | some q => rfl
  | none =>
      rw [found] at h
      split at h
      · next impossible => exact nomatch impossible
      · exact nomatch h

/-- Numbers that are numerically equal equal the same values. -/
theorem equal_congr_of_numericallyEqual {v w : Json} (hv : IsNumber v) (hw : IsNumber w)
    (same : numericallyEqual v w = true) (x : Json) : equal v x = equal w x := by
  rw [numericallyEqual, equalBy_number hv, count?_of_isNumber hv, count?_of_isNumber hw] at same
  obtain ⟨p, hp⟩ := Option.isSome_iff_exists.1 hv
  obtain ⟨q, hq⟩ := Option.isSome_iff_exists.1 hw
  simp only [hp, hq] at same
  rw [equal, equal, equalBy_number hv, equalBy_number hw, hp, hq, eq_of_equal same]

theorem eq_of_numericallyEqual_str {a b : String}
    (same : numericallyEqual (.str a) (.str b) = true) : a = b := by
  rw [numericallyEqual, equalBy] at same
  simpa [equalScalars] using same

end RouteContract.Json
