import RouteContract.Json.Reader
import RouteContract.Json.Writer
import RouteContract.Proofs.Number.DecimalText

/-!
# Numbers in JSON texts

A number that was written is read back, whatever stands after it, as long as that does not go on
with the number: an integer unless it has too many digits (`scalar_integerText`), and every finite
floating-point number (`scalar_floatText`).
-/

set_option autoImplicit false

namespace RouteContract.Json.Reader

open Number

/-- What may stand after a value: nothing that goes on with a number. -/
def IsBoundary (s : List Char) : Prop :=
  ∀ c ∈ s.head?, c.isDigit = false ∧ c ≠ '.' ∧ c ≠ 'e' ∧ c ≠ 'E'

/-- A text that does not begin with a digit. -/
def StopsDigits (s : List Char) : Prop := ∀ c ∈ s.head?, c.isDigit = false

section Parts

variable {s rest : List Char}

theorem takeWhile_digits (digits : IsDigits s) (stops : StopsDigits rest) :
    (s ++ rest).takeWhile Char.isDigit = s := by
  rw [List.takeWhile_append_of_pos digits]
  cases rest with
  | nil => rw [List.takeWhile_nil, List.append_nil]
  | cons c more =>
      have stop := stops c rfl
      rw [List.takeWhile_cons_of_neg (by simp [stop]), List.append_nil]

theorem dropWhile_digits (digits : IsDigits s) (stops : StopsDigits rest) :
    (s ++ rest).dropWhile Char.isDigit = rest := by
  rw [List.dropWhile_append_of_pos digits]
  cases rest with
  | nil => rfl
  | cons c more =>
      have stop := stops c rfl
      rw [List.dropWhile_cons_of_neg (by simp [stop])]

/-- The digits before the point are read up to what follows them. -/
theorem wholePart_append (digits : IsDigits s)
    (leading : s = ['0'] ∨ ∃ c more, s = c :: more ∧ c ≠ '0') (stops : StopsDigits rest) :
    wholePart (s ++ rest) = (s, rest) := by
  rcases leading with rfl | ⟨c, more, rfl, nonzero⟩
  · rfl
  · rw [List.cons_append, wholePart, ← List.cons_append, takeWhile_digits digits stops,
      dropWhile_digits digits stops]
    intro others same
    exact nonzero (List.cons.inj same).1

/-- The fractional part is read up to what follows it. -/
theorem fractionPart_append (digits : IsDigits s) (stops : StopsDigits rest)
    (pointless : ∀ c ∈ rest.head?, c ≠ '.') :
    fractionPart (Numeral.fractionText s ++ rest) = (s, rest) := by
  cases s with
  | nil =>
      rw [Numeral.fractionText, List.nil_append, fractionPart]
      rintro more rfl
      exact pointless '.' rfl rfl
  | cons c more =>
      rw [Numeral.fractionText, List.cons_append, fractionPart, takeWhile_digits digits stops,
        dropWhile_digits digits stops]
      · rfl
      · exact List.cons_ne_nil c more

theorem stopsDigits_of_isBoundary (h : IsBoundary rest) : StopsDigits rest :=
  fun c first => (h c first).1

theorem takeSign_mark (negative : Bool) (s : List Char) :
    takeSign ((if negative then '-' else '+') :: s) = (negative, s) := by
  cases negative <;> rfl

/-- The exponent is read up to what follows it. -/
theorem exponentPart_append (e? : Option (Bool × List Char))
    (proper : ∀ e ∈ e?, IsDigits e.2 ∧ e.2 ≠ []) (boundary : IsBoundary rest) :
    exponentPart (Numeral.exponentText e? ++ rest) =
      (e?.map fun e => Numeral.exponentValue (some e), rest) := by
  cases e? with
  | none =>
      cases rest with
      | nil => rfl
      | cons c more =>
          obtain ⟨-, -, noSmall, noLarge⟩ := boundary c rfl
          have noExponent : ¬ (c == 'e' || c == 'E') = true := by
            rw [Bool.or_eq_true, beq_iff_eq, beq_iff_eq, not_or]
            exact ⟨noSmall, noLarge⟩
          rw [Numeral.exponentText, List.nil_append, exponentPart, if_neg noExponent]
          rfl
  | some e =>
      obtain ⟨negative, digits⟩ := e
      obtain ⟨isDigits, nonempty⟩ := proper _ rfl
      have stops := stopsDigits_of_isBoundary boundary
      dsimp only at isDigits nonempty
      rw [Numeral.exponentText, List.cons_append, List.cons_append, exponentPart, takeSign_mark]
      dsimp only
      rw [takeWhile_digits isDigits stops, dropWhile_digits isDigits stops,
        List.isEmpty_eq_false_iff.2 nonempty]
      rfl

end Parts

/-! ## Numbers -/

/-- A sign as it is written. -/
def signText (negative : Bool) : List Char := if negative then ['-'] else []

theorem number_signText {s : List Char} (unsigned : ∀ c ∈ s.head?, c ≠ '-') (negative : Bool) :
    number (signText negative ++ s) = unsignedNumber negative s := by
  cases negative with
  | true => rfl
  | false =>
      rw [signText, if_neg Bool.false_ne_true, List.nil_append, number]
      rintro rest rfl
      exact unsigned '-' rfl rfl

section Unsigned

variable {rest : List Char}

theorem head?_exponentText (boundary : IsBoundary rest) (e? : Option (Bool × List Char)) :
    ∀ c ∈ (Numeral.exponentText e? ++ rest).head?, c.isDigit = false ∧ c ≠ '.' := by
  intro c first
  cases e? with
  | none => exact ⟨(boundary c first).1, (boundary c first).2.1⟩
  | some e =>
      cases first
      decide

theorem stopsDigits_fractionText (boundary : IsBoundary rest) (fraction : List Char)
    (e? : Option (Bool × List Char)) :
    StopsDigits (Numeral.fractionText fraction ++ (Numeral.exponentText e? ++ rest)) := by
  cases fraction with
  | nil => exact fun c first => (head?_exponentText boundary e? c first).1
  | cons c more =>
      intro d first
      cases first
      rfl

/-- A floating-point numeral is read as the number nearest to its decimal. -/
theorem unsignedNumber_text {n : Numeral} (h : n.IsFloating) (boundary : IsBoundary rest)
    (negative : Bool) :
    unsignedNumber negative (n.text ++ rest) =
      .ok (.float (Binary64.ofDecimal negative n.decimal.digits (n.whole ++ n.fraction).length
        n.decimal.exponent), rest) := by
  have nonempty : n.whole ≠ [] := by
    rcases h.leading with same | ⟨c, more, same, -⟩
    · rw [same]
      exact List.cons_ne_nil _ _
    · rw [same]
      exact List.cons_ne_nil _ _
  have marks := head?_exponentText boundary n.exponent?
  have floating : (n.fraction.isEmpty &&
      (n.exponent?.map fun e => Numeral.exponentValue (some e)).isNone) = false := by
    rcases h.hasPart with some | some
    · rw [List.isEmpty_eq_false_iff.2 some, Bool.false_and]
    · obtain ⟨e, same⟩ := Option.isSome_iff_exists.1 some
      rw [same, Option.map_some, Option.isNone_some, Bool.and_false]
  have exponent : (n.exponent?.map fun e => Numeral.exponentValue (some e)).getD 0 =
      Numeral.exponentValue n.exponent? := by
    cases n.exponent? <;> rfl
  rw [Numeral.text, List.append_assoc, List.append_assoc, unsignedNumber,
    wholePart_append h.whole h.leading (stopsDigits_fractionText boundary _ _)]
  dsimp only
  rw [List.isEmpty_eq_false_iff.2 nonempty,
    fractionPart_append h.fraction (fun c first => (marks c first).1)
      fun c first => (marks c first).2]
  dsimp only
  rw [exponentPart_append _ h.exponent boundary]
  dsimp only
  rw [floating, exponent]
  rfl

/-- The digits of a number are read as an integer, unless there are too many of them. -/
theorem unsignedNumber_decimalDigits (boundary : IsBoundary rest) (negative : Bool) {n : Nat}
    (short : (decimalDigits n).length ≤ digitLimit) :
    unsignedNumber negative (decimalDigits n ++ rest) =
      .ok (.int (if negative then -(n : Int) else n), rest) := by
  have leading : decimalDigits n = ['0'] ∨ ∃ c more, decimalDigits n = c :: more ∧ c ≠ '0' := by
    rcases Nat.eq_zero_or_pos n with rfl | positive
    · exact .inl rfl
    · exact .inr (exists_cons_decimalDigits positive.ne')
  have fraction : fractionPart rest = ([], rest) := by
    refine fractionPart_append (s := []) (fun _ member => nomatch member)
      (stopsDigits_of_isBoundary boundary) ?_
    exact fun c first => (boundary c first).2.1
  have exponent : exponentPart rest = (none, rest) :=
    exponentPart_append none (fun _ member => nomatch member) boundary
  rw [unsignedNumber, wholePart_append (isDigits_decimalDigits n) leading
    (stopsDigits_of_isBoundary boundary)]
  dsimp only
  rw [List.isEmpty_eq_false_iff.2 (decimalDigits_ne_nil n), fraction]
  dsimp only
  rw [exponent]
  dsimp only
  rw [List.isEmpty_nil, Option.isNone_none, Bool.and_self, if_pos rfl, if_neg Bool.false_ne_true,
    if_neg (not_lt.2 short)]
  rw [digitsValue_decimalDigits]

end Unsigned

/-! ## Scalars -/

theorem afterWord?_of_ne {c d : Char} (h : c ≠ d) (word s : List Char) :
    afterWord? (c :: word) (d :: s) = none := if_neg h

/-- A text that begins with a digit, after a sign or not, is no word. -/
theorem scalar_signText {c : Char} (digit : c.isDigit = true) (negative : Bool) (s : List Char) :
    scalar (signText negative ++ c :: s) = number (signText negative ++ c :: s) := by
  have noWord : ∀ entry ∈ words,
      afterWord? entry.1.toList (signText negative ++ c :: s) = none := by
    intro entry member
    have letters {d : Char} (h : d.isDigit = false) : d ≠ c := (ne_of_isDigit digit h).symm
    cases negative with
    | false =>
        simp only [words, List.mem_cons, List.not_mem_nil, or_false] at member
        rcases member with rfl | rfl | rfl | rfl | rfl | rfl
        all_goals exact afterWord?_of_ne (letters rfl) _ _
    | true =>
        simp only [words, List.mem_cons, List.not_mem_nil, or_false] at member
        rcases member with rfl | rfl | rfl | rfl | rfl | rfl
        case inr.inr.inr.inr.inr => exact afterWord?_of_ne (letters rfl) _ _
        all_goals exact afterWord?_of_ne (by decide) _ _
  have meaningless : (words.findSome? fun entry =>
      (afterWord? entry.1.toList (signText negative ++ c :: s)).map fun rest => (entry.2, rest)) =
        none := by
    rw [List.findSome?_eq_none_iff]
    intro entry member
    rw [noWord entry member, Option.map_none]
  rw [scalar, meaningless]

theorem number_of_isDigit {c : Char} (digit : c.isDigit = true) (negative : Bool) (s : List Char) :
    number (signText negative ++ c :: s) = unsignedNumber negative (c :: s) := by
  refine number_signText ?_ negative
  intro d first
  cases first
  exact ne_of_isDigit digit rfl

/-- The text of an integer is a sign and digits. -/
theorem exists_integerText (i : Int) :
    ∃ c more, integerText i = signText (decide (i < 0)) ++ c :: more ∧ c.isDigit = true ∧
      decimalDigits i.natAbs = c :: more := by
  obtain ⟨c, more, same⟩ := List.exists_cons_of_ne_nil (decimalDigits_ne_nil i.natAbs)
  refine ⟨c, more, ?_, isDigits_decimalDigits i.natAbs c ?_, same⟩
  · rw [← same, integerText, signText]
    by_cases negative : i < 0
    · rw [if_pos negative, if_pos (decide_eq_true negative), List.singleton_append]
    · rw [if_neg negative, if_neg (by simpa using negative), List.nil_append]
  · rw [same]
    exact List.mem_cons_self ..

/-- **An integer without too many digits is read back.** -/
theorem scalar_integerText {rest : List Char} (boundary : IsBoundary rest) {i : Int}
    (short : (decimalDigits i.natAbs).length ≤ digitLimit) :
    scalar (integerText i ++ rest) = .ok (.int i, rest) := by
  have value : (if decide (i < 0) = true then -(i.natAbs : Int) else i.natAbs) = i := by
    by_cases negative : i < 0
    · rw [if_pos (decide_eq_true negative)]
      omega
    · rw [if_neg (by simpa using negative)]
      omega
  obtain ⟨c, more, text, digit, same⟩ := exists_integerText i
  have read := unsignedNumber_decimalDigits boundary (decide (i < 0)) short
  rw [value, same] at read
  rw [text, List.append_assoc, ← read, List.cons_append, scalar_signText digit,
    number_of_isDigit digit]

/-- The text of a finite number is a sign and a numeral that is read as the number. -/
theorem exists_floatText (m : Magnitude) (negative : Bool) :
    ∃ n : Numeral, n.IsFloating ∧
      FloatStyle.json.text (.finite negative m) = signText negative ++ n.text ∧
      Binary64.ofDecimal negative n.decimal.digits (n.whole ++ n.fraction).length
        n.decimal.exponent = .finite negative m := by
  by_cases zero : m.mantissa = 0
  · have same : m = Magnitude.zero := by
      obtain ⟨mantissa, exponent, canonical⟩ := m
      cases zero
      obtain ⟨-, -, -, large | least⟩ := canonical
      · exact absurd large (by decide)
      · cases least
        rfl
    refine ⟨⟨['0'], ['0'], none⟩, ?_, ?_, ?_⟩
    · exact
        { whole := isDigits_replicate_zero 1
          fraction := isDigits_replicate_zero 1
          exponent := fun _ member => nomatch member
          leading := .inl rfl
          hasPart := .inl (List.cons_ne_nil _ _) }
    · rw [FloatStyle.text, if_pos zero]
      rfl
    · rw [same]
      rfl
  · have reads := readsAs_shortestDecimal m
    obtain ⟨n, floating, text, value⟩ :=
      exists_numeral FloatStyle.json (digits_ne_zero zero reads)
    refine ⟨n, floating, ?_, ?_⟩
    · rw [FloatStyle.text, if_neg zero, text]
      rfl
    · exact ofDecimal_eq_finite zero (Decimal.readsAs_of_value_eq reads value.symm)
        (Numeral.decimal_digits_lt floating) negative

/-- **A finite floating-point number is read back.** -/
theorem scalar_floatText {rest : List Char} (boundary : IsBoundary rest) (negative : Bool)
    (m : Magnitude) :
    scalar (FloatStyle.json.text (.finite negative m) ++ rest) =
      .ok (.float (.finite negative m), rest) := by
  obtain ⟨n, floating, text, value⟩ := exists_floatText m negative
  have read := unsignedNumber_text floating boundary negative
  rw [value] at read
  obtain ⟨c, more, same, digit⟩ := Numeral.exists_cons_text floating
  rw [text, List.append_assoc, ← read, same, List.cons_append, scalar_signText digit,
    number_of_isDigit digit]

end RouteContract.Json.Reader
