import RouteContract.Proofs.Json.Text
import RouteContract.Proofs.Json.Numeral

/-!
# Tokens of JSON texts

A text, a word or a number at the front of a JSON text is a token: what has been read of it is read in
the same way whatever stands behind it, as long as that does not go on with a number. No token has a
control character in it, and words and numbers have no blanks in them.
-/

set_option autoImplicit false

namespace RouteContract.Json.Reader

open Number

/-! ## Texts -/

section Texts

theorem hexValue?_quote : hexValue? '"' = none := by decide

/-- What is no digit among the first four characters leaves no number. -/
theorem hexQuad?_of_quote {p : List Char} (short : p.length < 4) (s : List Char) :
    hexQuad? (p ++ '"' :: s) = none := by
  match p, s with
  | [], [] | [], [_] | [], [_, _] | [_], [] | [_], [_] | [_, _], [] => rfl
  | [], a :: b :: c :: more =>
      simp only [List.nil_append, hexQuad?, hexValue?_quote]
  | [a], b :: c :: more =>
      simp only [List.cons_append, List.nil_append, hexQuad?, hexValue?_quote]
      cases hexValue? a <;> rfl
  | [a, b], c :: more =>
      simp only [List.cons_append, List.nil_append, hexQuad?, hexValue?_quote]
      cases hexValue? a <;> cases hexValue? b <;> rfl
  | [a, b, c], s =>
      simp only [List.cons_append, List.nil_append, hexQuad?, hexValue?_quote]
      cases hexValue? a <;> cases hexValue? b <;> cases hexValue? c <;> rfl
  | _ :: _ :: _ :: _ :: _, _ =>
      simp only [List.length_cons] at short
      omega

/-- Four digits stand before a closing mark, or they are none. -/
theorem hexQuad?_append (p s : List Char) :
    hexQuad? (p ++ '"' :: s) = (hexQuad? p).map fun q => (q.1, q.2 ++ '"' :: s) := by
  match p with
  | a :: b :: c :: d :: more =>
      simp only [List.cons_append, hexQuad?]
      cases hexValue? a <;> cases hexValue? b <;> cases hexValue? c <;> cases hexValue? d <;> rfl
  | [] | [_] | [_, _] | [_, _, _] => exact hexQuad?_of_quote (by simp) s

/-- An escape that no second one follows is a character by itself. -/
theorem escapedUnit?_of_alone {s rest : List Char} {high : Nat}
    (quad : hexQuad? s = some (high, rest)) (alone : ∀ more, rest ≠ '\\' :: 'u' :: more) :
    escapedUnit? s = some (unitChar high, rest) := by
  rw [escapedUnit?, quad]
  simp only

/-- An escape stands before a closing mark, or it is none. -/
theorem escapedUnit?_append (p s : List Char) :
    escapedUnit? (p ++ '"' :: s) = (escapedUnit? p).map fun q => (q.1, q.2 ++ '"' :: s) := by
  have quad := hexQuad?_append p s
  cases found : hexQuad? p with
  | none =>
      rw [found, Option.map_none] at quad
      rw [escapedUnit?, escapedUnit?, quad, found]
      rfl
  | some q =>
      obtain ⟨high, rest⟩ := q
      rw [found, Option.map_some] at quad
      by_cases pair : ∃ more, rest = '\\' :: 'u' :: more
      · obtain ⟨more, rfl⟩ := pair
        rw [escapedUnit?, escapedUnit?, quad, found]
        simp only [List.cons_append]
        rw [hexQuad?_append]
        cases hexQuad? more with
        | none => simp only [Option.map_none, Option.map_some, List.cons_append]
        | some q =>
            obtain ⟨low, after⟩ := q
            simp only [Option.map_some]
            by_cases halves : (isHighUnit high && isLowUnit low) = true
            · rw [if_pos halves, if_pos halves, Option.map_some]
            · rw [if_neg halves, if_neg halves, Option.map_some, List.cons_append, List.cons_append]
      · rw [escapedUnit?_of_alone found fun more same => pair ⟨more, same⟩,
          escapedUnit?_of_alone quad]
        · rfl
        · intro more same
          rcases rest with _ | ⟨a, _ | ⟨b, rest⟩⟩
          · cases same
          · cases same
          · simp only [List.cons_append, List.cons.injEq] at same
            obtain ⟨rfl, rfl, -⟩ := same
            exact pair ⟨_, rfl⟩

/-- Characters that a text may have between its marks. -/
def IsTextual (p : List Char) : Prop := ∀ c ∈ p, 0x20 ≤ c.toNat

theorem hexValue?_textual {c : Char} {n : Nat} (h : hexValue? c = some n) : 0x20 ≤ c.toNat := by
  rw [hexValue?] at h
  split at h
  · next digit =>
      rw [Bool.and_eq_true, decide_eq_true_eq] at digit
      exact Nat.le_trans (by decide) digit.1
  · split at h
    · next lower =>
        rw [Bool.and_eq_true, decide_eq_true_eq] at lower
        exact Nat.le_trans (by decide) lower.1
    · split at h
      · next upper =>
          rw [Bool.and_eq_true, decide_eq_true_eq] at upper
          exact Nat.le_trans (by decide) upper.1
      · cases h

theorem hexQuad?_split {s rest : List Char} {n : Nat} (h : hexQuad? s = some (n, rest)) :
    ∃ p, s = p ++ rest ∧ IsTextual p := by
  match s with
  | [] | [_] | [_, _] | [_, _, _] => cases h
  | a :: b :: c :: d :: more =>
      simp only [hexQuad?] at h
      split at h
      · next w x y z first second third fourth =>
          cases h
          refine ⟨[a, b, c, d], rfl, fun e listed => ?_⟩
          simp only [List.mem_cons, List.not_mem_nil, or_false] at listed
          rcases listed with rfl | rfl | rfl | rfl
          · exact hexValue?_textual first
          · exact hexValue?_textual second
          · exact hexValue?_textual third
          · exact hexValue?_textual fourth
      · cases h

theorem IsTextual.append {p q : List Char} (first : IsTextual p) (second : IsTextual q) :
    IsTextual (p ++ q) :=
  fun c listed => (List.mem_append.1 listed).elim (first c) (second c)

theorem isTextual_escape : IsTextual ['\\', 'u'] := by
  intro c listed
  simp only [List.mem_cons, List.not_mem_nil, or_false] at listed
  rcases listed with rfl | rfl
  · decide
  · decide

theorem escapedUnit?_split {s rest : List Char} {c : Char} (h : escapedUnit? s = some (c, rest)) :
    ∃ p, s = p ++ rest ∧ IsTextual p := by
  rw [escapedUnit?] at h
  cases found : hexQuad? s with
  | none =>
      rw [found] at h
      cases h
  | some q =>
      obtain ⟨high, more⟩ := q
      obtain ⟨p, rfl, textual⟩ := hexQuad?_split found
      rw [found] at h
      simp only at h
      split at h
      · next more =>
          split at h
          · next low after second =>
              obtain ⟨p', rfl, textual'⟩ := hexQuad?_split second
              split at h
              · obtain ⟨-, rfl⟩ := Prod.mk.inj (Option.some.inj h)
                refine ⟨p ++ (['\\', 'u'] ++ p'), ?_, textual.append (isTextual_escape.append textual')⟩
                simp only [List.append_assoc, List.cons_append, List.nil_append]
              · cases h
                exact ⟨p, rfl, textual⟩
          · cases h
            exact ⟨p, rfl, textual⟩
      · cases h
        exact ⟨p, rfl, textual⟩

theorem simpleEscape?_textual {c d : Char} (h : simpleEscape? c = some d) : 0x20 ≤ c.toNat := by
  rw [simpleEscape?] at h
  repeat' split at h
  · next mark =>
      simp only [Bool.or_eq_true, beq_iff_eq] at mark
      rcases mark with (rfl | rfl) | rfl <;> decide
  · next letter => exact beq_iff_eq.1 letter ▸ (by decide)
  · next letter => exact beq_iff_eq.1 letter ▸ (by decide)
  · next letter => exact beq_iff_eq.1 letter ▸ (by decide)
  · next letter => exact beq_iff_eq.1 letter ▸ (by decide)
  · next letter => exact beq_iff_eq.1 letter ▸ (by decide)
  · cases h

/-- **A text that is read is read up to its closing mark**, in the same way whatever stands behind
it. -/
theorem textBody_split {fuel : Nat} {done s rest : List Char} {t : String}
    (h : textBody fuel done s = .ok (t, rest)) :
    ∃ p, s = p ++ '"' :: rest ∧ IsTextual p ∧
      ∀ (fuel' : Nat) (other : List Char), p.length < fuel' →
        textBody fuel' done (p ++ '"' :: other) = .ok (t, other) := by
  induction fuel generalizing done s with
  | zero => cases h
  | succ fuel ih =>
      unfold textBody at h
      split at h
      · cases h
      · next more =>
          cases h
          refine ⟨[], rfl, nofun, fun fuel' other enough => ?_⟩
          obtain ⟨fuel', rfl⟩ : ∃ n, fuel' = n + 1 := ⟨fuel' - 1, by simp at enough; omega⟩
          rw [List.nil_append, textBody]
      · next more =>
          split at h
          · next c after found =>
              obtain ⟨q, rfl, textual⟩ := escapedUnit?_split found
              obtain ⟨p, rfl, textual', reads⟩ := ih h
              refine ⟨'\\' :: 'u' :: (q ++ p), by simp, isTextual_escape.append
                (textual.append textual'), fun fuel' other enough => ?_⟩
              have whole := escapedUnit?_append (q ++ p) rest
              rw [List.append_assoc, found] at whole
              obtain ⟨⟨c', x⟩, inner, same⟩ := Option.map_eq_some_iff.1 whole.symm
              obtain ⟨rfl, same'⟩ := Prod.mk.inj same
              obtain rfl : x = p := List.append_cancel_right same'
              simp only [List.length_cons, List.length_append] at enough
              obtain ⟨fuel', rfl⟩ : ∃ n, fuel' = n + 1 := ⟨fuel' - 1, by omega⟩
              rw [List.cons_append, List.cons_append, textBody, escapedUnit?_append, inner]
              exact reads fuel' other (by omega)
          · cases h
      · next c more notUnit =>
          split at h
          · next d found =>
              obtain ⟨p, rfl, textual, reads⟩ := ih h
              refine ⟨'\\' :: c :: p, rfl, ?_, fun fuel' other enough => ?_⟩
              · exact List.forall_mem_cons.2 ⟨by decide, List.forall_mem_cons.2
                  ⟨simpleEscape?_textual found, textual⟩⟩
              · simp only [List.length_cons] at enough
                obtain ⟨fuel', rfl⟩ : ∃ n, fuel' = n + 1 := ⟨fuel' - 1, by omega⟩
                rw [List.cons_append, List.cons_append, textBody, found]
                · exact reads fuel' other (by omega)
                · exact notUnit
          · cases h
      · next c more notQuote _ _ =>
          split at h
          · cases h
          · next allowed =>
              obtain ⟨p, rfl, textual, reads⟩ := ih h
              have notSlash : c ≠ '\\' := fun same => allowed (by simp [same])
              have visible : 0x20 ≤ c.toNat := Nat.le_of_not_lt fun low => allowed (by simp [low])
              refine ⟨c :: p, rfl, List.forall_mem_cons.2 ⟨visible, textual⟩,
                fun fuel' other enough => ?_⟩
              simp only [List.length_cons] at enough
              obtain ⟨fuel', rfl⟩ : ∃ n, fuel' = n + 1 := ⟨fuel' - 1, by omega⟩
              rw [List.cons_append, ← List.singleton_append, textBody_plain notQuote notSlash visible]
              exact reads fuel' other (by omega)

theorem text_split {s rest : List Char} {t : String} (h : text s = .ok (t, rest)) :
    ∃ p, s = p ++ '"' :: rest ∧ IsTextual p ∧
      ∀ other, text (p ++ '"' :: other) = .ok (t, other) := by
  obtain ⟨p, same, textual, reads⟩ := textBody_split h
  refine ⟨p, same, textual, fun other => reads _ other ?_⟩
  rw [List.length_append]
  omega

end Texts

/-! ## Numbers -/

section Numbers

theorem takeWhile_dropWhile_digits (s : List Char) :
    s = s.takeWhile Char.isDigit ++ s.dropWhile Char.isDigit ∧
      IsDigits (s.takeWhile Char.isDigit) := by
  refine ⟨List.takeWhile_append_dropWhile.symm, fun c listed => ?_⟩
  exact List.mem_takeWhile_imp listed

theorem wholePart_split {s whole rest : List Char} (h : wholePart s = (whole, rest))
    (some : whole ≠ []) :
    s = whole ++ rest ∧ IsDigits whole ∧ (whole = ['0'] ∨ ∃ c more, whole = c :: more ∧ c ≠ '0') := by
  unfold wholePart at h
  split at h
  · cases h
    refine ⟨rfl, fun c listed => ?_, .inl rfl⟩
    rw [List.mem_singleton.1 listed]
    rfl
  · next other =>
      obtain ⟨rfl, rfl⟩ := Prod.mk.inj h
      obtain ⟨same, digits⟩ := takeWhile_dropWhile_digits s
      refine ⟨same, digits, ?_⟩
      obtain ⟨c, more, shape⟩ := List.exists_cons_of_ne_nil some
      rw [shape] at same
      exact .inr ⟨c, more, shape, fun zero => other _ (by rw [zero] at same; exact same)⟩

theorem fractionPart_split {s fraction rest : List Char} (h : fractionPart s = (fraction, rest)) :
    s = Numeral.fractionText fraction ++ rest ∧ IsDigits fraction := by
  unfold fractionPart at h
  split at h
  · next more =>
      obtain ⟨same, digits⟩ := takeWhile_dropWhile_digits more
      simp only at h
      split at h
      · cases h
        exact ⟨rfl, nofun⟩
      · next some =>
          obtain ⟨rfl, rfl⟩ := Prod.mk.inj h
          rw [List.isEmpty_iff] at some
          refine ⟨?_, digits⟩
          rw [Numeral.fractionText_of_ne_nil some, List.cons_append, ← same]
  · cases h
    exact ⟨rfl, nofun⟩

/-- The characters of numbers. -/
def IsNumeric (p : List Char) : Prop :=
  ∀ c ∈ p, c.isDigit = true ∨ c = '.' ∨ c = 'e' ∨ c = 'E' ∨ c = '+' ∨ c = '-'

theorem IsNumeric.append {p q : List Char} (first : IsNumeric p) (second : IsNumeric q) :
    IsNumeric (p ++ q) :=
  fun c listed => (List.mem_append.1 listed).elim (first c) (second c)

theorem isNumeric_of_isDigits {p : List Char} (digits : IsDigits p) : IsNumeric p :=
  fun c listed => .inl (digits c listed)

theorem isNumeric_fractionText {p : List Char} (digits : IsDigits p) :
    IsNumeric (Numeral.fractionText p) := by
  cases p with
  | nil => exact nofun
  | cons c more =>
      exact List.forall_mem_cons.2 ⟨.inr (.inl rfl), isNumeric_of_isDigits digits⟩

/-- A sign is taken off whatever digits stand behind it. -/
theorem takeSign_split (s : List Char) :
    ∃ sign, s = sign ++ (takeSign s).2 ∧ IsNumeric sign ∧
      ∀ (c : Char) (more : List Char), c.isDigit = true →
        takeSign (sign ++ c :: more) = ((takeSign s).1, c :: more) := by
  unfold takeSign
  split
  · exact ⟨['-'], rfl, by simp [IsNumeric], fun _ _ _ => rfl⟩
  · exact ⟨['+'], rfl, by simp [IsNumeric], fun _ _ _ => rfl⟩
  · refine ⟨[], rfl, nofun, fun c more digit => ?_⟩
    have minus : c ≠ '-' := ne_of_isDigit digit rfl
    have plus : c ≠ '+' := ne_of_isDigit digit rfl
    rw [List.nil_append]
    split
    · next same => exact absurd (List.cons.inj same).1 minus
    · next same => exact absurd (List.cons.inj same).1 plus
    · rfl

theorem exponentPart_of_isBoundary {s : List Char} (boundary : IsBoundary s) :
    exponentPart s = (none, s) := exponentPart_append none nofun boundary

theorem exponentPart_split {s rest : List Char} {e? : Option Int}
    (h : exponentPart s = (e?, rest)) :
    ∃ p, s = p ++ rest ∧ IsNumeric p ∧ (∀ c ∈ p.head?, c = 'e' ∨ c = 'E') ∧
      ∀ other, IsBoundary other → exponentPart (p ++ other) = (e?, other) := by
  have nothing (same : (none, s) = (e?, rest)) :
      ∃ p, s = p ++ rest ∧ IsNumeric p ∧ (∀ c ∈ p.head?, c = 'e' ∨ c = 'E') ∧
        ∀ other, IsBoundary other → exponentPart (p ++ other) = (e?, other) := by
    cases same
    exact ⟨[], rfl, nofun, nofun, fun other => exponentPart_of_isBoundary⟩
  unfold exponentPart at h
  split at h
  · next c more =>
      split at h
      · next mark =>
          obtain ⟨sign, signed, numeric, takes⟩ := takeSign_split more
          simp only at h
          split at h
          · exact nothing h
          · next some =>
              obtain ⟨same, digits⟩ := takeWhile_dropWhile_digits (takeSign more).2
              obtain ⟨rfl, rfl⟩ := Prod.mk.inj h
              rw [List.isEmpty_iff] at some
              have marked : c = 'e' ∨ c = 'E' := by
                simpa only [Bool.or_eq_true, beq_iff_eq] using mark
              refine ⟨c :: (sign ++ (takeSign more).2.takeWhile Char.isDigit), ?_, ?_, ?_,
                fun other boundary => ?_⟩
              · rw [List.cons_append, List.append_assoc, ← same, ← signed]
              · exact List.forall_mem_cons.2 ⟨marked.elim (fun e => .inr (.inr (.inl e)))
                  fun e => .inr (.inr (.inr (.inl e))),
                  numeric.append (isNumeric_of_isDigits digits)⟩
              · rintro _ ⟨⟩
                exact marked
              · obtain ⟨d, others, shape⟩ := List.exists_cons_of_ne_nil some
                have stops := stopsDigits_of_isBoundary boundary
                have first : d.isDigit = true := digits d (by rw [shape]; exact List.mem_cons_self ..)
                have taken : takeSign (sign ++ ((takeSign more).2.takeWhile Char.isDigit ++ other)) =
                    ((takeSign more).1, (takeSign more).2.takeWhile Char.isDigit ++ other) := by
                  rw [shape, List.cons_append]
                  exact takes d _ first
                rw [List.cons_append, List.append_assoc, exponentPart, if_pos mark, taken]
                simp only
                rw [takeWhile_digits digits stops, dropWhile_digits digits stops,
                  List.isEmpty_eq_false_iff.2 some]
                rfl
      · exact nothing h
  · exact nothing h

/-- A text that begins with the mark of an exponent, or else with a boundary. -/
theorem head?_append_of_isBoundary {p other : List Char} (mark : ∀ c ∈ p.head?, c = 'e' ∨ c = 'E')
    (boundary : IsBoundary other) : ∀ c ∈ (p ++ other).head?, c.isDigit = false ∧ c ≠ '.' := by
  intro c first
  cases p with
  | nil => exact ⟨(boundary c first).1, (boundary c first).2.1⟩
  | cons d more =>
      obtain rfl : d = c := Option.some.inj first
      rcases mark d rfl with rfl | rfl
      · decide
      · decide

/-- **A number that is read is read in the same way before every boundary.** -/
theorem unsignedNumber_split {negative : Bool} {s rest : List Char} {v : Json}
    (h : unsignedNumber negative s = .ok (v, rest)) :
    ∃ c p, s = c :: (p ++ rest) ∧ c.isDigit = true ∧ IsNumeric p ∧
      ∀ other, IsBoundary other →
        unsignedNumber negative (c :: (p ++ other)) = .ok (v, other) := by
  rw [unsignedNumber] at h
  cases first : wholePart s with
  | mk whole afterWhole =>
    cases second : fractionPart afterWhole with
    | mk fraction afterFraction =>
      cases third : exponentPart afterFraction with
      | mk exponent? after =>
        simp only [first, second, third] at h
        split at h
        · cases h
        next some =>
        rw [List.isEmpty_iff] at some
        obtain ⟨rfl, digits, leading⟩ := wholePart_split first some
        obtain ⟨rfl, decimals⟩ := fractionPart_split second
        obtain ⟨p, rfl, numeric, mark, exponent⟩ := exponentPart_split third
        obtain ⟨c, more, rfl⟩ := List.exists_cons_of_ne_nil some
        -- Before another boundary the number falls into the same parts.
        have again (other : List Char) (boundary : IsBoundary other) :
            wholePart (c :: more ++ (Numeral.fractionText fraction ++ (p ++ other))) =
                (c :: more, Numeral.fractionText fraction ++ (p ++ other)) ∧
              fractionPart (Numeral.fractionText fraction ++ (p ++ other)) =
                (fraction, p ++ other) := by
          have ahead := head?_append_of_isBoundary mark boundary
          refine ⟨wholePart_append digits leading fun d front => ?_, fractionPart_append decimals
            (fun d front => (ahead d front).1) fun d front => (ahead d front).2⟩
          cases fraction with
          | nil => exact (ahead d front).1
          | cons =>
              cases front
              rfl
        have shape (other : List Char) :
            c :: (more ++ (Numeral.fractionText fraction ++ p) ++ other) =
              c :: more ++ (Numeral.fractionText fraction ++ (p ++ other)) := by
          rw [List.cons_append, List.append_assoc, List.append_assoc]
        have read {v : Json} {after : List Char}
            (result : ∀ other, IsBoundary other →
              unsignedNumber negative (c :: more ++ (Numeral.fractionText fraction ++ (p ++ other))) =
                .ok (v, other)) :
            ∃ d q, c :: more ++ (Numeral.fractionText fraction ++ (p ++ after)) = d :: (q ++ after) ∧
              d.isDigit = true ∧ IsNumeric q ∧ ∀ other, IsBoundary other →
                unsignedNumber negative (d :: (q ++ other)) = .ok (v, other) := by
          refine ⟨c, more ++ (Numeral.fractionText fraction ++ p), (shape after).symm,
            digits c (List.mem_cons_self ..), ?_, fun other boundary => ?_⟩
          · exact (isNumeric_of_isDigits fun d listed => digits d (List.mem_cons_of_mem _ listed)).append
              ((isNumeric_fractionText decimals).append numeric)
          · rw [shape]
            exact result other boundary
        split at h
        · next isInteger =>
            split at h
            · cases h
            · next short =>
                cases h
                refine read fun other boundary => ?_
                rw [unsignedNumber, (again other boundary).1]
                simp only
                rw [(again other boundary).2]
                simp only [exponent other boundary, isInteger, if_neg short, List.isEmpty_cons,
                  Bool.false_eq_true, if_false, if_true]
        · next isFloat =>
            cases h
            refine read fun other boundary => ?_
            rw [unsignedNumber, (again other boundary).1]
            simp only
            rw [(again other boundary).2]
            simp only [exponent other boundary, if_neg isFloat, List.isEmpty_cons,
              Bool.false_eq_true, if_false]

end Numbers

/-! ## Words and numbers -/

section Scalars

/-- A text without blanks. -/
def IsVisible (p : List Char) : Prop := ∀ c ∈ p, Text.isBlank c = false

theorem IsNumeric.isVisible {p : List Char} (numeric : IsNumeric p) : IsVisible p := by
  intro c listed
  rcases numeric c listed with digit | rfl | rfl | rfl | rfl | rfl
  · exact isBlank_of_isDigit digit
  all_goals decide

theorem afterWord?_split {word s rest : List Char} (h : afterWord? word s = some rest) :
    s = word ++ rest := by
  induction word generalizing s with
  | nil => exact Option.some.inj h
  | cons c word ih =>
      cases s with
      | nil => cases h
      | cons d s =>
          rw [afterWord?] at h
          split at h
          · next same => rw [same, List.cons_append, ih h]
          · cases h

theorem number_split {s rest : List Char} {v : Json} (h : number s = .ok (v, rest)) :
    ∃ p, s = p ++ rest ∧ p ≠ [] ∧ IsVisible p ∧
      ∀ other, IsBoundary other → number (p ++ other) = .ok (v, other) ∧
        scalar (p ++ other) = number (p ++ other) := by
  have signed (negative : Bool) {digits : List Char} (same : s = signText negative ++ digits)
      (h : unsignedNumber negative digits = .ok (v, rest)) :
      ∃ p, s = p ++ rest ∧ p ≠ [] ∧ IsVisible p ∧
        ∀ other, IsBoundary other → number (p ++ other) = .ok (v, other) ∧
          scalar (p ++ other) = number (p ++ other) := by
    obtain ⟨c, p, rfl, digit, numeric, reads⟩ := unsignedNumber_split h
    refine ⟨signText negative ++ c :: p, ?_, ?_, ?_, fun other boundary => ?_⟩
    · rw [same, List.append_assoc, List.cons_append]
    · exact List.append_ne_nil_of_right_ne_nil _ (List.cons_ne_nil c p)
    · have sign : IsNumeric (signText negative) := by cases negative <;> simp [signText, IsNumeric]
      exact (sign.append (List.forall_mem_cons.2 ⟨.inl digit, numeric⟩)).isVisible
    · rw [List.append_assoc, List.cons_append, scalar_signText digit, number_of_isDigit digit]
      exact ⟨reads other boundary, rfl⟩
  unfold number at h
  split at h
  · exact signed true rfl h
  · exact signed false rfl h

theorem isVisible_of_mem_words : ∀ entry ∈ words, IsVisible entry.1.toList := by
  have checked : (words.all fun entry => entry.1.toList.all fun c => !Text.isBlank c) = true := by
    decide
  simp only [List.all_eq_true, Bool.not_eq_true'] at checked
  exact checked

/-- **A word or a number that is read is read in the same way before every boundary.** -/
theorem scalar_split {s rest : List Char} {v : Json} (h : scalar s = .ok (v, rest)) :
    ∃ p, s = p ++ rest ∧ p ≠ [] ∧ IsVisible p ∧
      ∀ other, IsBoundary other → scalar (p ++ other) = .ok (v, other) := by
  unfold scalar at h
  simp only at h
  split at h
  · next found meaning =>
      cases h
      obtain ⟨entry, listed, meant⟩ := List.exists_of_findSome?_eq_some meaning
      obtain ⟨after, spelled, same⟩ := Option.map_eq_some_iff.1 meant
      cases same
      have visible := isVisible_of_mem_words entry listed
      refine ⟨entry.1.toList, afterWord?_split spelled, ?_⟩
      simp only [words, List.mem_cons, List.not_mem_nil, or_false] at listed
      rcases listed with rfl | rfl | rfl | rfl | rfl | rfl
      all_goals exact ⟨by decide, visible, fun _ _ => rfl⟩
  · obtain ⟨p, same, some, visible, reads⟩ := number_split h
    exact ⟨p, same, some, visible, fun other boundary =>
      (reads other boundary).2.trans (reads other boundary).1⟩

end Scalars

end RouteContract.Json.Reader
