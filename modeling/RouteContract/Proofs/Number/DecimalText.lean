import Mathlib.Data.List.TakeWhile
import RouteContract.Proofs.Number.Numeral
import RouteContract.Proofs.Number.Shortest

/-!
# Texts of decimals

A style writes a positive decimal positionally or with an exponent. Whatever form it takes, the text
is a numeral: digits before the point, digits after it, and an exponent, some of which may be
missing. The parts of the numeral denote what the decimal denotes (`exists_numeral`).
-/

set_option autoImplicit false

namespace RouteContract.Number

/-! ## Values of digits -/

theorem digitsValue_append (s t : List Char) :
    digitsValue (s ++ t) = 10 ^ t.length * digitsValue s + digitsValue t := by
  have joined : digitsValue (s ++ t) = Nat.ofDigitChars 10 t (Nat.ofDigitChars 10 s 0) :=
    Nat.ofDigitChars_append 0
  rw [joined, Nat.ofDigitChars_eq_ofDigitChars_zero]
  rfl

theorem digitsValue_replicate_zero (count : Nat) :
    digitsValue (List.replicate count '0') = 0 :=
  Nat.ofDigitChars_replicate_zero

/-- Zeros at the front do not count. -/
theorem digitsValue_zeros_append (count : Nat) (s : List Char) :
    digitsValue (List.replicate count '0' ++ s) = digitsValue s := by
  rw [digitsValue_append, digitsValue_replicate_zero, Nat.mul_zero, Nat.zero_add]

/-- Zeros at the end multiply. -/
theorem digitsValue_append_zeros (s : List Char) (count : Nat) :
    digitsValue (s ++ List.replicate count '0') = digitsValue s * 10 ^ count := by
  rw [digitsValue_append, digitsValue_replicate_zero, List.length_replicate, Nat.add_zero,
    Nat.mul_comm]

/-- Digits denote less than the power of ten that has one more. -/
theorem digitsValue_lt {s : List Char} (h : IsDigits s) : digitsValue s < 10 ^ s.length := by
  induction s with
  | nil => exact Nat.one_pos
  | cons c rest ih =>
      have first := toNat_of_isDigit (h c (List.mem_cons_self ..))
      have others := ih fun d member => h d (List.mem_cons_of_mem _ member)
      have front : digitsValue [c] ≤ 9 := by
        change 10 * 0 + (c.toNat - 0x30) ≤ 9
        omega
      calc digitsValue (c :: rest) = 10 ^ rest.length * digitsValue [c] + digitsValue rest :=
            digitsValue_append [c] rest
        _ < 10 ^ rest.length * digitsValue [c] + 10 ^ rest.length := Nat.add_lt_add_left others _
        _ = 10 ^ rest.length * (digitsValue [c] + 1) := rfl
        _ ≤ 10 ^ rest.length * 10 := Nat.mul_le_mul_left _ (Nat.succ_le_succ front)
        _ = 10 ^ (c :: rest).length := (Nat.pow_succ ..).symm

/-! ## Digits of a number -/

theorem isDigits_replicate_zero (count : Nat) : IsDigits (List.replicate count '0') := by
  intro c member
  rw [List.eq_of_mem_replicate member]
  rfl

theorem IsDigits.append {s t : List Char} (hs : IsDigits s) (ht : IsDigits t) :
    IsDigits (s ++ t) := by
  intro c member
  rcases List.mem_append.1 member with inFirst | inSecond
  · exact hs c inFirst
  · exact ht c inSecond

theorem isDigits_decimalDigits (n : Nat) : IsDigits (decimalDigits n) := isDigits_toDigits n

theorem digitsValue_decimalDigits (n : Nat) : digitsValue (decimalDigits n) = n :=
  digitsValue_toDigits n

theorem decimalDigits_ne_nil (n : Nat) : decimalDigits n ≠ [] := Nat.toDigits_ne_nil

/-- The digits of a positive number do not begin with a zero. -/
theorem exists_cons_decimalDigits {n : Nat} (positive : n ≠ 0) :
    ∃ c rest, decimalDigits n = c :: rest ∧ c ≠ '0' := by
  rw [decimalDigits]
  induction n using Nat.base_induction 10 (by decide) with
  | single m small =>
      refine ⟨m.digitChar, [], Nat.toDigits_of_lt_base small, ?_⟩
      intro zero
      have value := Nat.toNat_digitChar_sub_48_of_lt_ten small
      rw [zero] at value
      exact positive value.symm
  | digit m k small leading ih =>
      obtain ⟨c, rest, same, nonzero⟩ := ih (by omega)
      refine ⟨c, rest ++ Nat.toDigits 10 k, ?_, nonzero⟩
      rw [← Nat.toDigits_append_toDigits (by decide) leading small, same, List.cons_append]

/-- The zeros that are dropped are the ones at the end. -/
theorem dropZeros_append (s : List Char) :
    (dropZeros s).1 ++ List.replicate (dropZeros s).2 '0' = s := by
  have parts : s = (s.reverse.dropWhile (· == '0')).reverse ++
      (s.reverse.takeWhile (· == '0')).reverse := by
    rw [← List.reverse_append, List.takeWhile_append_dropWhile, List.reverse_reverse]
  have zeros : (s.reverse.takeWhile (· == '0')).reverse =
      List.replicate (s.reverse.takeWhile (· == '0')).reverse.length '0' := by
    refine List.eq_replicate_of_mem fun c member => ?_
    have zero := List.mem_takeWhile_imp (List.mem_reverse.1 member)
    exact beq_iff_eq.1 zero
  have count : (dropZeros s).2 = (s.reverse.takeWhile (· == '0')).reverse.length := by
    have lengths := congrArg List.length parts
    rw [List.length_append] at lengths
    change s.length - (s.reverse.dropWhile (· == '0')).reverse.length = _
    omega
  rw [count, ← zeros]
  exact parts.symm

/-- What is left of the digits of a positive number begins as they do. -/
theorem exists_cons_dropZeros {n : Nat} (positive : n ≠ 0) :
    ∃ c rest, (dropZeros (decimalDigits n)).1 = c :: rest ∧ c ≠ '0' := by
  obtain ⟨c, rest, same, nonzero⟩ := exists_cons_decimalDigits positive
  have parts := (dropZeros_append (decimalDigits n)).trans same
  rcases kept : (dropZeros (decimalDigits n)).1 with - | ⟨d, more⟩
  · rw [kept, List.nil_append] at parts
    have zero : c ∈ List.replicate (dropZeros (decimalDigits n)).2 '0' := by
      rw [parts]
      exact List.mem_cons_self ..
    exact absurd (List.eq_of_mem_replicate zero) nonzero
  · rw [kept] at parts
    exact ⟨d, more, rfl, by rwa [(List.cons.inj parts).1]⟩

theorem digitsValue_dropZeros (n : Nat) :
    digitsValue (dropZeros (decimalDigits n)).1 * 10 ^ (dropZeros (decimalDigits n)).2 = n := by
  rw [← digitsValue_append_zeros, dropZeros_append, digitsValue_decimalDigits]

theorem isDigits_dropZeros (n : Nat) : IsDigits (dropZeros (decimalDigits n)).1 := by
  intro c member
  refine isDigits_decimalDigits n c ?_
  rw [← dropZeros_append (decimalDigits n)]
  exact List.mem_append_left _ member

/-! ## Numerals -/

/-- The parts of a floating-point text. The sign of the exponent is true when it is negative. -/
structure Numeral where
  whole : List Char
  fraction : List Char
  exponent? : Option (Bool × List Char)

namespace Numeral

/-- The fractional part as it is written. -/
def fractionText : List Char → List Char
  | [] => []
  | digits => '.' :: digits

theorem fractionText_of_ne_nil {digits : List Char} (nonempty : digits ≠ []) :
    fractionText digits = '.' :: digits := by
  cases digits with
  | nil => exact absurd rfl nonempty
  | cons => rfl

/-- The exponent as it is written. -/
def exponentText : Option (Bool × List Char) → List Char
  | none => []
  | some (negative, digits) => 'e' :: (if negative then '-' else '+') :: digits

/-- The exponent that is written. -/
def exponentValue : Option (Bool × List Char) → Int
  | none => 0
  | some (negative, digits) => if negative then -(digitsValue digits : Int) else digitsValue digits

/-- The text of a numeral. -/
def text (n : Numeral) : List Char :=
  n.whole ++ (fractionText n.fraction ++ exponentText n.exponent?)

/-- The decimal that a numeral spells. -/
def decimal (n : Numeral) : Decimal :=
  ⟨digitsValue (n.whole ++ n.fraction), exponentValue n.exponent? - n.fraction.length⟩

/-- A numeral that is read as a floating-point number. -/
structure IsFloating (n : Numeral) : Prop where
  whole : IsDigits n.whole
  fraction : IsDigits n.fraction
  exponent : ∀ e ∈ n.exponent?, IsDigits e.2 ∧ e.2 ≠ []
  leading : n.whole = ['0'] ∨ ∃ c rest, n.whole = c :: rest ∧ c ≠ '0'
  hasPart : n.fraction ≠ [] ∨ n.exponent?.isSome = true

theorem decimal_digits_lt {n : Numeral} (h : n.IsFloating) :
    n.decimal.digits < 10 ^ (n.whole ++ n.fraction).length :=
  digitsValue_lt (h.whole.append h.fraction)

/-- A numeral begins with a digit. -/
theorem exists_cons_text {n : Numeral} (h : n.IsFloating) :
    ∃ c more, n.text = c :: more ∧ c.isDigit = true := by
  rcases h.leading with same | ⟨c, more, same, -⟩
  · rw [text, same]
    exact ⟨'0', _, rfl, rfl⟩
  · have digit : c.isDigit = true := by
      refine h.whole c ?_
      rw [same]
      exact List.mem_cons_self ..
    rw [text, same]
    exact ⟨c, _, rfl, digit⟩

/-! ## The forms of a text -/

variable {c : Char} {rest : List Char}

/-- One digit before the point, and an exponent. -/
def scientific (c : Char) (rest : List Char) (width : Nat) (order : Int) : Numeral :=
  ⟨[c], rest, some (decide (order < 0), padLeft width (decimalDigits order.natAbs))⟩

/-- A whole number with a zero after the point. -/
def round (digits : List Char) (zeros : Nat) : Numeral :=
  ⟨digits ++ List.replicate zeros '0', ['0'], none⟩

/-- A number below one. -/
def small (digits : List Char) (zeros : Nat) : Numeral :=
  ⟨['0'], List.replicate zeros '0' ++ digits, none⟩

/-- Digits with the point between them. -/
def pointed (digits : List Char) (count : Nat) : Numeral :=
  ⟨digits.take count, digits.drop count, none⟩

theorem exponentValue_order (width : Nat) (order : Int) :
    exponentValue (some (decide (order < 0), padLeft width (decimalDigits order.natAbs))) =
      order := by
  have digits : digitsValue (padLeft width (decimalDigits order.natAbs)) = order.natAbs := by
    rw [padLeft, digitsValue_zeros_append, digitsValue_decimalDigits]
  rw [exponentValue, digits]
  by_cases negative : order < 0
  · rw [decide_eq_true negative, if_pos rfl]
    omega
  · rw [decide_eq_false negative, if_neg Bool.false_ne_true]
    omega

theorem isFloating_scientific (digits : IsDigits (c :: rest)) (nonzero : c ≠ '0') (width : Nat)
    (order : Int) : (scientific c rest width order).IsFloating where
  whole := fun d member => digits d (List.mem_cons.2 (.inl (List.mem_singleton.1 member)))
  fraction := fun d member => digits d (List.mem_cons_of_mem _ member)
  exponent := by
    intro e member
    cases member
    refine ⟨(isDigits_replicate_zero _).append (isDigits_decimalDigits _), ?_⟩
    exact List.append_ne_nil_of_right_ne_nil _ (decimalDigits_ne_nil _)
  leading := .inr ⟨c, [], rfl, nonzero⟩
  hasPart := .inr rfl

theorem value_scientific (width : Nat) (order : Int) :
    (scientific c rest width order).decimal.value =
      digitsValue (c :: rest) * 10 ^ (order - rest.length) := by
  rw [decimal, Decimal.value]
  dsimp only [scientific]
  rw [exponentValue_order]
  rfl

theorem isFloating_round (digits : IsDigits (c :: rest)) (nonzero : c ≠ '0') (zeros : Nat) :
    (round (c :: rest) zeros).IsFloating where
  whole := digits.append (isDigits_replicate_zero zeros)
  fraction := isDigits_replicate_zero 1
  exponent := fun _ member => nomatch member
  leading := .inr ⟨c, rest ++ List.replicate zeros '0', rfl, nonzero⟩
  hasPart := .inl (List.cons_ne_nil _ _)

theorem value_round (digits : List Char) (zeros : Nat) :
    (round digits zeros).decimal.value = digitsValue digits * 10 ^ (zeros : Int) := by
  have joined : digits ++ List.replicate zeros '0' ++ ['0'] =
      digits ++ List.replicate (zeros + 1) '0' := by
    rw [List.append_assoc, List.replicate_succ']
  rw [decimal, Decimal.value]
  dsimp only [round]
  rw [joined, digitsValue_append_zeros, exponentValue]
  have tenth : (10 : ℚ) ^ ((0 : Int) - (['0'].length : Int)) = 10⁻¹ := by norm_num
  rw [tenth, zpow_natCast, Nat.pow_succ]
  push_cast
  rw [mul_assoc, mul_inv_cancel_right₀ (by norm_num)]

theorem isFloating_small (digits : IsDigits rest) (nonempty : rest ≠ []) (zeros : Nat) :
    (small rest zeros).IsFloating where
  whole := isDigits_replicate_zero 1
  fraction := (isDigits_replicate_zero zeros).append digits
  exponent := fun _ member => nomatch member
  leading := .inl rfl
  hasPart := .inl (List.append_ne_nil_of_right_ne_nil _ nonempty)

theorem value_small (digits : List Char) (zeros : Nat) :
    (small digits zeros).decimal.value =
      digitsValue digits * 10 ^ (-(zeros : Int) - digits.length) := by
  have joined : ['0'] ++ (List.replicate zeros '0' ++ digits) =
      List.replicate (zeros + 1) '0' ++ digits := rfl
  rw [decimal, Decimal.value]
  dsimp only [small]
  rw [joined, digitsValue_zeros_append, exponentValue, List.length_append, List.length_replicate]
  congr 2
  push_cast
  ring

theorem isFloating_pointed (digits : IsDigits (c :: rest)) (nonzero : c ≠ '0') {count : Nat}
    (some : 0 < count) (less : count < (c :: rest).length) :
    (pointed (c :: rest) count).IsFloating where
  whole := fun d member => digits d (List.mem_of_mem_take member)
  fraction := fun d member => digits d (List.mem_of_mem_drop member)
  exponent := fun _ member => nomatch member
  leading := by
    obtain ⟨k, rfl⟩ := Nat.exists_eq_succ_of_ne_zero some.ne'
    exact .inr ⟨c, rest.take k, List.take_succ_cons, nonzero⟩
  hasPart := .inl (by rwa [pointed, ne_eq, List.drop_eq_nil_iff, not_le])

theorem value_pointed {digits : List Char} {count : Nat} (less : count ≤ digits.length) :
    (pointed digits count).decimal.value =
      digitsValue digits * 10 ^ ((count : Int) - digits.length) := by
  rw [decimal, Decimal.value]
  dsimp only [pointed]
  rw [List.take_append_drop, exponentValue, List.length_drop]
  congr 2
  omega

end Numeral

/-- **The text of a positive decimal is a numeral that denotes it.** -/
theorem exists_numeral (style : FloatStyle) {d : Decimal} (positive : d.digits ≠ 0) :
    ∃ n : Numeral, n.IsFloating ∧ n.text = style.decimalText d ∧ n.decimal.value = d.value := by
  obtain ⟨c, rest, kept, nonzero⟩ := exists_cons_dropZeros positive
  have digits := isDigits_dropZeros d.digits
  have written := digitsValue_dropZeros d.digits
  rw [FloatStyle.decimalText]
  generalize dropZeros (decimalDigits d.digits) = parts at kept digits written ⊢
  obtain ⟨kept', dropped⟩ := parts
  dsimp only at kept digits written ⊢
  subst kept
  have value : d.value = digitsValue (c :: rest) * 10 ^ (d.exponent + dropped) := by
    rw [Decimal.value, ← written, zpow_add₀ (by norm_num), zpow_natCast]
    push_cast
    ring
  generalize d.exponent + (dropped : Int) = exponent at value ⊢
  rw [value]
  split
  · refine ⟨.scientific c rest style.exponentDigits (exponent + (c :: rest).length - 1), ?_⟩
    refine ⟨Numeral.isFloating_scientific digits nonzero _ _, ?_, ?_⟩
    · cases rest <;> simp [Numeral.text, Numeral.scientific, Numeral.fractionText,
        Numeral.exponentText]
    · rw [Numeral.value_scientific, List.length_cons]
      congr 2
      push_cast
      ring
  · split
    · next nonneg =>
        obtain ⟨k, rfl⟩ := Int.eq_ofNat_of_zero_le nonneg
        refine ⟨.round (c :: rest) k, Numeral.isFloating_round digits nonzero k, ?_, ?_⟩
        · rfl
        · exact Numeral.value_round _ k
    · split
      · next negative below =>
          obtain ⟨k, same⟩ := Int.eq_ofNat_of_zero_le
            (by omega : 0 ≤ -(exponent + (c :: rest).length - 1) - 1)
          refine ⟨.small (c :: rest) k, Numeral.isFloating_small digits (List.cons_ne_nil _ _) k,
            ?_, ?_⟩
          · rw [same, Numeral.text, Numeral.small]
            dsimp only [Numeral.exponentText]
            rw [Numeral.fractionText_of_ne_nil (List.append_ne_nil_of_right_ne_nil _
              (List.cons_ne_nil _ _)), List.append_nil, Int.toNat_natCast]
            rfl
          · rw [Numeral.value_small]
            congr 2
            omega
      · next negative above =>
          obtain ⟨k, same⟩ := Int.eq_ofNat_of_zero_le
            (by omega : 0 ≤ exponent + (c :: rest).length - 1 + 1)
          refine ⟨.pointed (c :: rest) k,
            Numeral.isFloating_pointed digits nonzero (by omega) (by omega), ?_, ?_⟩
          · rw [same, Numeral.text, Numeral.pointed]
            dsimp only [Numeral.exponentText]
            rw [Numeral.fractionText_of_ne_nil (by rw [ne_eq, List.drop_eq_nil_iff]; omega),
              List.append_nil, Int.toNat_natCast]
          · rw [Numeral.value_pointed (by omega)]
            congr 2
            omega

end RouteContract.Number
