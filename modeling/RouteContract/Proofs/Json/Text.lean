import RouteContract.Json.Reader
import RouteContract.Json.Writer

/-!
# Strings in JSON texts

Every character of a string is written so that it is read back as itself: by itself, as an escape of
one letter, as an escape with four digits, or, beyond the basic plane, as two such escapes in a row
(`textBody_escape`). So a string that was written is read back, whatever stands after its closing
mark (`text_text`).
-/

set_option autoImplicit false

namespace RouteContract.Json.Reader

/-! ## Escapes with four digits -/

theorem hexValue?_hexDigit : ∀ n < 16, hexValue? (Text.hexDigit n) = some n := by
  decide

/-- Four digits are read back. -/
theorem hexQuad?_hexDigits {n : Nat} (small : n < 0x10000) (rest : List Char) :
    hexQuad? (Text.hexDigits 4 n ++ rest) = some (n, rest) := by
  have digits : Text.hexDigits 4 n ++ rest =
      Text.hexDigit (n / 16 / 16 / 16 % 16) :: Text.hexDigit (n / 16 / 16 % 16) ::
        Text.hexDigit (n / 16 % 16) :: Text.hexDigit (n % 16) :: rest := rfl
  rw [digits, hexQuad?, hexValue?_hexDigit _ (by omega), hexValue?_hexDigit _ (by omega),
    hexValue?_hexDigit _ (by omega), hexValue?_hexDigit _ (by omega)]
  dsimp only
  rw [show ((n / 16 / 16 / 16 % 16 * 16 + n / 16 / 16 % 16) * 16 + n / 16 % 16) * 16 + n % 16 = n by
    omega]

/-- The code of a character is not one half of a pair. -/
theorem toNat_valid (c : Char) : c.toNat < 0xD800 ∨ (0xDFFF < c.toNat ∧ c.toNat < 0x110000) :=
  c.valid

theorem isHighUnit_toNat (c : Char) : isHighUnit c.toNat = false := by
  have valid := toNat_valid c
  simp only [isHighUnit, Bool.and_eq_false_iff, decide_eq_false_iff_not]
  omega

theorem isLowUnit_toNat (c : Char) : isLowUnit c.toNat = false := by
  have valid := toNat_valid c
  simp only [isLowUnit, Bool.and_eq_false_iff, decide_eq_false_iff_not]
  omega

theorem unitChar_toNat (c : Char) : unitChar c.toNat = c := by
  rw [unitChar, isHighUnit_toNat, isLowUnit_toNat]
  exact Char.ofNat_toNat c

/-- A character of the basic plane is read from its four digits, even where another escape follows.
-/
theorem escapedUnit?_toNat {c : Char} (basic : c.toNat < 0x10000) (rest : List Char) :
    escapedUnit? (Text.hexDigits 4 c.toNat ++ rest) = some (c, rest) := by
  rw [escapedUnit?, hexQuad?_hexDigits basic]
  dsimp only
  split
  · split
    · rw [isHighUnit_toNat, Bool.false_and, if_neg Bool.false_ne_true, unitChar_toNat]
    · rw [unitChar_toNat]
  · rw [unitChar_toNat]

/-- Two escapes that spell the halves of a pair are one character. -/
theorem escapedUnit?_of_halves {s more after : List Char} {high low : Nat}
    (first : hexQuad? s = some (high, '\\' :: 'u' :: more))
    (second : hexQuad? more = some (low, after)) (isHigh : isHighUnit high = true)
    (isLow : isLowUnit low = true) :
    escapedUnit? s =
      some (Char.ofNat (0x10000 + (high - 0xD800) * 0x400 + (low - 0xDC00)), after) := by
  simp only [escapedUnit?, first, second, isHigh, isLow, Bool.and_self, if_true]

/-- A character beyond the basic plane is read from the two halves of its pair. -/
theorem escapedUnit?_pair {c : Char} (beyond : ¬ c.toNat < 0x10000) (rest : List Char) :
    escapedUnit? (Text.hexDigits 4 (0xD800 + (c.toNat - 0x10000) / 0x400) ++
      '\\' :: 'u' :: (Text.hexDigits 4 (0xDC00 + (c.toNat - 0x10000) % 0x400) ++ rest)) =
        some (c, rest) := by
  have valid := toNat_valid c
  have high : isHighUnit (0xD800 + (c.toNat - 0x10000) / 0x400) = true := by
    simp only [isHighUnit, Bool.and_eq_true, decide_eq_true_eq]
    omega
  have low : isLowUnit (0xDC00 + (c.toNat - 0x10000) % 0x400) = true := by
    simp only [isLowUnit, Bool.and_eq_true, decide_eq_true_eq]
    omega
  have code : 0x10000 + (0xD800 + (c.toNat - 0x10000) / 0x400 - 0xD800) * 0x400 +
      (0xDC00 + (c.toNat - 0x10000) % 0x400 - 0xDC00) = c.toNat := by
    omega
  have read := escapedUnit?_of_halves (hexQuad?_hexDigits (by omega) _)
    (hexQuad?_hexDigits (by omega) rest) high low
  rw [code, Char.ofNat_toNat] at read
  exact read

/-! ## Characters -/

/-- A character that needs no escape is read as it stands. -/
theorem textBody_plain {c : Char} (notQuote : c ≠ '"') (notSlash : c ≠ '\\')
    (visible : 0x20 ≤ c.toNat) (fuel : Nat) (done rest : List Char) :
    textBody (fuel + 1) done ([c] ++ rest) = textBody fuel (c :: done) rest := by
  have allowed : ¬ (c == '\\' || c.toNat < 0x20) = true := by
    rw [beq_eq_false_iff_ne.2 notSlash, Bool.false_or, decide_eq_true_eq]
    omega
  rw [List.singleton_append, textBody, if_neg allowed]
  · exact notQuote
  · intro more same
    exact absurd same notSlash
  · intro d more same
    exact absurd same notSlash

/-- **One character is read back as it was written.** -/
theorem textBody_escape (c : Char) (fuel : Nat) (done rest : List Char) :
    textBody (fuel + 1) done (Writer.escape c ++ rest) = textBody fuel (c :: done) rest := by
  rw [Writer.escape]
  split
  · next mark =>
      rw [Bool.or_eq_true] at mark
      rcases mark with same | same <;> (cases beq_iff_eq.1 same; rfl)
  split
  · next same => cases beq_iff_eq.1 same; rfl
  split
  · next same => cases beq_iff_eq.1 same; rfl
  split
  · next same => cases beq_iff_eq.1 same; rfl
  split
  · next same =>
      have code : c = '\x0c' := Char.toNat_inj.1 (beq_iff_eq.1 same)
      subst code
      rfl
  split
  · next same =>
      have code : c = '\x08' := Char.toNat_inj.1 (beq_iff_eq.1 same)
      subst code
      rfl
  split
  · next notMark _ _ _ _ _ plain =>
      rw [Bool.or_eq_true, not_or, beq_iff_eq, beq_iff_eq] at notMark
      rw [Bool.and_eq_true, decide_eq_true_eq] at plain
      exact textBody_plain notMark.1 notMark.2 plain.1 fuel done rest
  split
  · next basic =>
      rw [Writer.unitEscape, List.cons_append, List.cons_append, textBody,
        escapedUnit?_toNat basic]
  · next beyond =>
      rw [Writer.unitEscape, Writer.unitEscape, List.append_assoc, List.cons_append,
        List.cons_append, List.cons_append, List.cons_append, textBody, escapedUnit?_pair beyond]

theorem escape_ne_nil (c : Char) : Writer.escape c ≠ [] := by
  intro nothing
  have read := textBody_escape c 0 [] ['"']
  rw [nothing] at read
  exact nomatch read

/-! ## Strings -/

/-- Characters are read back up to the closing mark. -/
theorem textBody_flatMap (s : List Char) {fuel : Nat} (enough : s.length < fuel)
    (done rest : List Char) :
    textBody fuel done (s.flatMap Writer.escape ++ '"' :: rest) =
      .ok (String.ofList (done.reverse ++ s), rest) := by
  induction s generalizing fuel done with
  | nil =>
      obtain ⟨k, rfl⟩ := Nat.exists_eq_add_of_lt enough
      rw [List.append_nil]
      rfl
  | cons c more ih =>
      obtain ⟨k, rfl⟩ := Nat.exists_eq_add_of_lt enough
      have shorter : more.length < (c :: more).length + k := by
        rw [List.length_cons]
        omega
      rw [List.flatMap_cons, List.append_assoc, textBody_escape, ih shorter, List.reverse_cons,
        List.append_assoc, List.singleton_append]

theorem length_le_length_flatMap (s : List Char) :
    s.length ≤ (s.flatMap Writer.escape).length := by
  induction s with
  | nil => exact Nat.zero_le _
  | cons c more ih =>
      have first := List.length_pos_iff.2 (escape_ne_nil c)
      rw [List.flatMap_cons, List.length_append, List.length_cons]
      omega

/-- **A string is read back as it was written.** -/
theorem text_text (t : String) (rest : List Char) :
    text (t.toList.flatMap Writer.escape ++ '"' :: rest) = .ok (t, rest) := by
  have enough : t.toList.length <
      (t.toList.flatMap Writer.escape ++ '"' :: rest).length + 1 := by
    have long := length_le_length_flatMap t.toList
    rw [List.length_append]
    omega
  rw [text, textBody_flatMap _ enough, List.reverse_nil, List.nil_append, String.ofList_toList]

end RouteContract.Json.Reader
