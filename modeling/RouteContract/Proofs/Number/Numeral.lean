import Mathlib.Data.List.Basic
import RouteContract.Number.Numeral

/-!
# Reading decimal numerals

A natural number that is written in decimal digits is read back, unless it has more digits than an
integer may be written with (`readInteger_toDigits`).
-/

set_option autoImplicit false

namespace RouteContract.Number

/-- A text of ASCII digits. -/
def IsDigits (s : List Char) : Prop := ∀ c ∈ s, c.isDigit = true

theorem isDigits_toDigits (n : Nat) : IsDigits (Nat.toDigits 10 n) := fun _ h =>
  Nat.isDigit_of_mem_toDigits (by decide) (by decide) h

theorem digitsValue_toDigits (n : Nat) : digitsValue (Nat.toDigits 10 n) = n :=
  Nat.ofDigitChars_ten_toDigits

theorem toNat_of_isDigit {c : Char} (h : c.isDigit = true) : 0x30 ≤ c.toNat ∧ c.toNat ≤ 0x39 :=
  Char.isDigit_iff_toNat.1 h

theorem ne_of_isDigit {c d : Char} (h : c.isDigit = true) (hd : d.isDigit = false) : c ≠ d := by
  rintro rfl
  rw [h] at hd
  exact nomatch hd

theorem isBlank_of_isDigit {c : Char} (h : c.isDigit = true) : Text.isBlank c = false := by
  have bounds := toNat_of_isDigit h
  simp only [Text.isBlank, Bool.or_eq_false_iff, Bool.and_eq_false_iff, decide_eq_false_iff_not,
    beq_eq_false_iff_ne]
  omega

section Digits

variable {s : List Char}

theorem numeralChar_of_isDigit {c : Char} (h : c.isDigit = true) : numeralChar c = c := by
  have bounds := toNat_of_isDigit h
  rw [numeralChar, if_pos (by omega)]

theorem isNumeralBlank_of_isDigit {c : Char} (h : c.isDigit = true) :
    isNumeralBlank c = false := by
  have bounds := toNat_of_isDigit h
  have notSpace : c ≠ ' ' := ne_of_isDigit h rfl
  simp only [isNumeralBlank, beq_eq_false_iff_ne.2 notSpace, Bool.false_or, Bool.and_eq_false_iff,
    decide_eq_false_iff_not]
  omega

theorem dropWhile_blank_of_isDigits (h : IsDigits s) : s.dropWhile isNumeralBlank = s := by
  cases s with
  | nil => rfl
  | cons c rest =>
      have digit := isNumeralBlank_of_isDigit (h c (List.mem_cons_self ..))
      rw [List.dropWhile_cons_of_neg (by simp [digit])]

theorem numeralText_of_isDigits (h : IsDigits s) : numeralText s = s := by
  have same : s.map numeralChar = s :=
    (List.map_congr_left fun c member => numeralChar_of_isDigit (h c member)).trans (List.map_id s)
  have backwards : IsDigits s.reverse := fun c member => h c (List.mem_reverse.1 member)
  rw [numeralText, same, Text.dropAround, dropWhile_blank_of_isDigits h, Text.dropRightWhile,
    dropWhile_blank_of_isDigits backwards, List.reverse_reverse]

theorem dropUnderscores?_of_isDigits (h : IsDigits s) (afterDigit : Bool) :
    dropUnderscores? afterDigit s = some s := by
  induction s generalizing afterDigit with
  | nil => rfl
  | cons c rest ih =>
      have digit := h c (List.mem_cons_self ..)
      rw [dropUnderscores?, ih fun d member => h d (List.mem_cons_of_mem _ member)]
      · rfl
      · exact ne_of_isDigit digit rfl

theorem takeSign_of_isDigits (h : IsDigits s) : takeSign s = (false, s) := by
  rw [takeSign]
  · rintro rest rfl
    exact nomatch h '-' (List.mem_cons_self ..)
  · rintro rest rfl
    exact nomatch h '+' (List.mem_cons_self ..)

end Digits

/-- **A number that is written in digits is read back**, unless it has too many of them. -/
theorem readInteger_toDigits (n : Nat) :
    readInteger (Nat.toDigits 10 n) =
      if digitLimit < (Nat.toDigits 10 n).length then .error .tooLong else .ok n := by
  have digits := isDigits_toDigits n
  have allDigits : (Nat.toDigits 10 n).all Char.isDigit = true := List.all_eq_true.2 digits
  have nonempty : (Nat.toDigits 10 n).isEmpty = false := by
    simp
  rw [readInteger, numeralText_of_isDigits digits]
  simp only [takeSign_of_isDigits digits, dropUnderscores?_of_isDigits digits, nonempty, allDigits,
    digitsValue_toDigits]
  rfl

end RouteContract.Number
