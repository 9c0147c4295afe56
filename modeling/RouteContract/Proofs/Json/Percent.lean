import Mathlib
import RouteContract.Proofs.Pointer

/-!
# Percent escapes in pointers

A reference is a fragment of an address, so percent escapes in it are decoded before it is read as a
pointer. A pointer that was written from segments is not prepared for that: where a segment has a
percent sign with two hexadecimal digits behind it, these three characters become a byte.

Decoding leaves the slashes between segments where they are (`percentDecode_append_slash`), and a
segment is read back as it was written exactly if it has no escape
(`unescape_percentDecode_escape_iff`): each escape that is decoded takes away a percent sign or a
digit two, of which escapes are made, and no other step gives one back.
-/

set_option autoImplicit false

namespace RouteContract.Pointer

/-! ## Escapes -/

/-- Whether a text has a percent sign with two hexadecimal digits behind it. -/
def hasEscape : List Char → Bool
  | '%' :: a :: b :: rest =>
      ((hexValue? a).isSome && (hexValue? b).isSome) || hasEscape (a :: b :: rest)
  | _ :: rest => hasEscape rest
  | [] => false

theorem hasEscape_cons_of_ne {c : Char} (ne : c ≠ '%') (rest : List Char) :
    hasEscape (c :: rest) = hasEscape rest := by
  rw [hasEscape]
  rintro a b more rfl
  exact absurd rfl ne

theorem pieces_cons_of_ne {c : Char} (ne : c ≠ '%') (rest : List Char) :
    pieces (c :: rest) = pieceOf c :: pieces rest := by
  rw [pieces]
  rintro a b more rfl
  exact absurd rfl ne

theorem hasEscape_eq_false_of_not_mem {s : List Char} (plain : '%' ∉ s) : hasEscape s = false := by
  induction s with
  | nil => rfl
  | cons c rest ih =>
      rw [List.mem_cons, not_or] at plain
      rw [hasEscape_cons_of_ne (Ne.symm plain.1), ih plain.2]

/-- **Either a text begins with an escape, or its first letter stands for itself.** -/
theorem pieces_cases (c : Char) (rest : List Char) :
    (∃ a b high low more, c = '%' ∧ rest = a :: b :: more ∧ hexValue? a = some high ∧
        hexValue? b = some low ∧ pieces (c :: rest) = .byte (16 * high + low) :: pieces more ∧
        hasEscape (c :: rest) = true) ∨
      (∀ a b more, c = '%' → rest = a :: b :: more → hexValue? a = none ∨ hexValue? b = none) ∧
        pieces (c :: rest) = pieceOf c :: pieces rest ∧ hasEscape (c :: rest) = hasEscape rest := by
  by_cases percent : c = '%'
  · subst percent
    match rest with
    | [] => exact .inr ⟨nofun, rfl, rfl⟩
    | [a] =>
        refine .inr ⟨nofun, ?_, ?_⟩
        · rw [pieces]
          nofun
        · rw [hasEscape]
          nofun
    | a :: b :: more =>
        rw [pieces, hasEscape]
        cases high : hexValue? a with
        | none =>
            refine .inr ⟨?_, rfl, rfl⟩
            rintro _ _ _ - ⟨⟩
            exact .inl high
        | some h =>
            cases low : hexValue? b with
            | none =>
                refine .inr ⟨?_, rfl, rfl⟩
                rintro _ _ _ - ⟨⟩
                exact .inr low
            | some l => exact .inl ⟨a, b, h, l, more, rfl, rfl, high, low, rfl, rfl⟩
  · exact .inr ⟨fun _ _ _ same => absurd same percent, pieces_cons_of_ne percent rest,
      hasEscape_cons_of_ne percent rest⟩

/-- A text without escapes spells itself. -/
theorem percentDecode_of_hasEscape_eq_false {s : List Char} (plain : hasEscape s = false) :
    percentDecode s = s := by
  have whole : pieces s = s.map pieceOf := by
    induction s with
    | nil => rfl
    | cons c rest ih =>
        rcases pieces_cases c rest with ⟨_, _, _, _, _, -, -, -, -, -, escape⟩ | ⟨-, first, same⟩
        · rw [plain] at escape
          cases escape
        · rw [first, ih (same ▸ plain), List.map_cons]
  rw [percentDecode, whole, decodePieces_map_pieceOf]

/-! ## Characters of several bytes -/

/-- What is pending is completed by bytes beyond ASCII, to a character beyond the digits. -/
structure Pending.IsSound (p : Pending) : Prop where
  low : 0x80 ≤ p.low
  beyond : 0x40 ≤ (p.bits * 64 + (p.low - 0x80)) * 64 ^ (p.missing - 1)

/-- What is pending, if anything. -/
def IsSound (pending : Option Pending) : Prop := ∀ p, pending = some p → p.IsSound

theorem isSound_none : IsSound none := nofun

theorem isSound_some {p : Pending} (sound : p.IsSound) : IsSound (some p) := by
  rintro _ ⟨⟩
  exact sound

theorem isSound_beginByte (b : Nat) : IsSound (beginByte b).2 := by
  rw [beginByte]
  split
  · exact isSound_none
  · split
    · next two =>
        simp only [Bool.and_eq_true, decide_eq_true_eq] at two
        exact isSound_some ⟨Nat.le_refl _, by dsimp only; omega⟩
    · split
      · next three =>
          simp only [Bool.and_eq_true, decide_eq_true_eq] at three
          refine isSound_some ⟨?_, ?_⟩
          · dsimp only
            split <;> omega
          · dsimp only
            split <;> omega
      · split
        · next four =>
            simp only [Bool.and_eq_true, decide_eq_true_eq] at four
            refine isSound_some ⟨?_, ?_⟩
            · dsimp only
              split <;> omega
            · dsimp only
              split <;> omega
        · exact isSound_none

/-- The next byte of a character adds to what is pending. -/
theorem Pending.IsSound.next {p : Pending} (sound : p.IsSound) {b : Nat} (least : p.low ≤ b)
    (more : p.missing ≠ 1) :
    Pending.IsSound ⟨p.bits * 64 + (b - 0x80), p.missing - 1, 0x80, 0xBF⟩ where
  low := Nat.le_refl _
  beyond := by
    have grown : p.bits * 64 + (p.low - 0x80) ≤ p.bits * 64 + (b - 0x80) := by omega
    have power : 64 ^ (p.missing - 1) ≤ 64 * 64 ^ (p.missing - 1 - 1) := by
      rcases missing : p.missing with _ | _ | n
      · decide
      · exact absurd missing more
      · exact (Nat.pow_succ').le
    calc 0x40 ≤ (p.bits * 64 + (p.low - 0x80)) * 64 ^ (p.missing - 1) := sound.beyond
      _ ≤ (p.bits * 64 + (b - 0x80)) * (64 * 64 ^ (p.missing - 1 - 1)) :=
        Nat.mul_le_mul grown power
      _ = ((p.bits * 64 + (b - 0x80)) * 64 + (0x80 - 0x80)) * 64 ^ (p.missing - 1 - 1) := by
        rw [Nat.sub_self, Nat.add_zero, Nat.mul_assoc]

theorem isSound_nextByte {pending : Option Pending} (sound : IsSound pending) (b : Nat) :
    IsSound (nextByte pending b).2 := by
  cases pending with
  | none => exact isSound_beginByte b
  | some p =>
      rw [nextByte]
      split
      · next within =>
          simp only [Bool.and_eq_true, decide_eq_true_eq] at within
          dsimp only
          split
          · exact isSound_none
          · next more => exact isSound_some ((sound p rfl).next within.1 more)
      · exact isSound_beginByte b

theorem decodePieces_byte (pending : Option Pending) (b : Nat) (rest : List Piece) :
    decodePieces pending (.byte b :: rest) =
      (nextByte pending b).1 ++ decodePieces (nextByte pending b).2 rest := by
  rw [decodePieces]

/-- What is pending when a slash comes is given up. -/
theorem decodePieces_slash {pending : Option Pending} (sound : IsSound pending)
    (rest : List Piece) :
    decodePieces pending (.byte '/'.toNat :: rest) =
      decodePieces pending [] ++ '/' :: decodePieces none rest := by
  rw [decodePieces_byte]
  cases pending with
  | none => rfl
  | some p =>
      have low := (sound p rfl).low
      have slash : '/'.toNat = 0x2F := rfl
      rw [nextByte, if_neg]
      · rfl
      · simp only [Bool.and_eq_true, decide_eq_true_eq]
        omega

theorem decodePieces_append_slash {pending : Option Pending} (sound : IsSound pending)
    (front rest : List Piece) :
    decodePieces pending (front ++ .byte '/'.toNat :: rest) =
      decodePieces pending front ++ '/' :: decodePieces none rest := by
  induction front generalizing pending with
  | nil => exact decodePieces_slash sound rest
  | cons piece more ih =>
      cases piece with
      | char c =>
          rw [List.cons_append, decodePieces, decodePieces, ih isSound_none, List.append_assoc]
          rfl
      | byte b =>
          rw [List.cons_append, decodePieces_byte, decodePieces_byte,
            ih (isSound_nextByte sound b), List.append_assoc]

/-- A slash is no part of an escape. -/
theorem pieces_append_slash (front rest : List Char) :
    pieces (front ++ '/' :: rest) = pieces front ++ .byte '/'.toNat :: pieces rest := by
  have slash : hexValue? '/' = none := by decide
  induction length : front.length using Nat.strong_induction_on generalizing front with
  | _ n ih =>
      subst length
      cases front with
      | nil =>
          rw [List.nil_append, pieces_cons_of_ne (by decide)]
          rfl
      | cons c more =>
          rw [List.cons_append]
          rcases pieces_cases c more with
            ⟨a, b, high, low, tail, rfl, rfl, ha, hb, read, -⟩ | ⟨other, read, -⟩
          · have shorter : tail.length < ('%' :: a :: b :: tail).length := by simp; omega
            rw [read, List.cons_append, List.cons_append, pieces, List.cons_append,
              ← ih _ shorter tail rfl]
            simp only [ha, hb]
          · rcases pieces_cases c (more ++ '/' :: rest) with
              ⟨a, b, high, low, tail, percent, cut, ha, hb, -, -⟩ | ⟨-, read', -⟩
            · -- Both digits would stand in front of the slash.
              match more, cut with
              | [], cut =>
                  rw [← (List.cons.inj cut).1, slash] at ha
                  cases ha
              | [_], cut =>
                  rw [← (List.cons.inj (List.cons.inj cut).2).1, slash] at hb
                  cases hb
              | _ :: _ :: _, rfl =>
                  rcases other _ _ _ percent rfl with none | none
                  · rw [none] at ha
                    cases ha
                  · rw [none] at hb
                    cases hb
            · rw [read', read, ih _ (Nat.lt_succ_self _) more rfl, List.cons_append]

/-- **Slashes stay where they are.** -/
theorem percentDecode_append_slash (front rest : List Char) :
    percentDecode (front ++ '/' :: rest) = percentDecode front ++ '/' :: percentDecode rest := by
  rw [percentDecode, pieces_append_slash, decodePieces_append_slash isSound_none, percentDecode,
    percentDecode]

/-! ## What escapes are made of -/

/-- Whether a character is a percent sign or a digit two: an escape that decodes to one of them has
both in it or begins with one. -/
def isSign (c : Char) : Bool := c == '%' || c == '2'

/-- Whether a piece is a percent sign or a digit two. -/
def Piece.isSign : Piece → Bool
  | .byte b => b == '%'.toNat || b == '2'.toNat
  | .char c => Pointer.isSign c

theorem isSign_eq_toNat (c : Char) :
    isSign c = (c.toNat == '%'.toNat || c.toNat == '2'.toNat) := by
  rw [isSign, Bool.eq_iff_iff]
  simp only [Bool.or_eq_true, beq_iff_eq, Char.toNat_inj]

theorem isSign_pieceOf (c : Char) : (pieceOf c).isSign = isSign c := by
  rw [pieceOf]
  split
  · exact (isSign_eq_toNat c).symm
  · rfl

theorem isSign_ofNat_of_le {n : Nat} (beyond : 0x40 ≤ n) : isSign (Char.ofNat n) = false := by
  have percent : '%'.toNat = 0x25 := rfl
  have two : '2'.toNat = 0x32 := rfl
  rw [isSign_eq_toNat, Char.toNat_ofNat, Bool.or_eq_false_iff, beq_eq_false_iff_ne,
    beq_eq_false_iff_ne]
  split <;> omega

theorem countP_beginByte (b : Nat) :
    (beginByte b).1.countP isSign ≤ [Piece.byte b].countP Piece.isSign := by
  rw [beginByte]
  split
  · next ascii =>
      have read : (Char.ofNat b).toNat = b := by
        rw [Char.toNat_ofNat, if_pos (.inl (by omega))]
      rw [List.countP_singleton, List.countP_singleton, isSign_eq_toNat, read]
      exact Nat.le_refl _
  · split
    · exact Nat.zero_le _
    · split
      · exact Nat.zero_le _
      · split
        · exact Nat.zero_le _
        · exact Nat.zero_le _

theorem countP_nextByte {pending : Option Pending} (sound : IsSound pending) (b : Nat) :
    (nextByte pending b).1.countP isSign ≤ [Piece.byte b].countP Piece.isSign := by
  cases pending with
  | none => exact countP_beginByte b
  | some p =>
      rw [nextByte]
      split
      · next within =>
          simp only [Bool.and_eq_true, decide_eq_true_eq] at within
          dsimp only
          split
          · next last =>
              have beyond := (sound p rfl).beyond
              rw [last, Nat.sub_self, Nat.pow_zero, Nat.mul_one] at beyond
              rw [List.countP_singleton, isSign_ofNat_of_le (by omega)]
              exact Nat.zero_le _
          · exact Nat.zero_le _
      · exact countP_beginByte b

/-- Decoding makes no sign. -/
theorem countP_decodePieces {pending : Option Pending} (sound : IsSound pending)
    (pieces : List Piece) :
    (decodePieces pending pieces).countP isSign ≤ pieces.countP Piece.isSign := by
  induction pieces generalizing pending with
  | nil =>
      rw [decodePieces]
      split <;> exact Nat.zero_le _
  | cons piece rest ih =>
      cases piece with
      | char c =>
          have later := ih isSound_none
          rw [decodePieces, List.countP_append, List.countP_cons, List.countP_cons]
          have none : (if pending.isSome then [replacement] else []).countP isSign = 0 := by
            split <;> rfl
          rw [none, Nat.zero_add]
          exact Nat.add_le_add_right later _
      | byte b =>
          have later := ih (isSound_nextByte sound b)
          have here := countP_nextByte sound b
          rw [decodePieces_byte, List.countP_append, ← List.singleton_append, List.countP_append]
          exact Nat.add_le_add here later

theorem hexValue?_bounds {c : Char} {n : Nat} (h : hexValue? c = some n) :
    n < 16 ∧ (n = 2 → c = '2') := by
  have two : '2'.toNat = 0x32 := rfl
  simp only [hexValue?, Bool.and_eq_true, decide_eq_true_eq, Char.le_def,
    UInt32.le_iff_toNat_le] at h
  split at h
  · next digit =>
      obtain ⟨least, most⟩ : 0x30 ≤ c.toNat ∧ c.toNat ≤ 0x39 := digit
      cases h
      exact ⟨by omega, fun same => Char.toNat_inj.1 (by omega)⟩
  · split at h
    · next lower =>
        obtain ⟨least, most⟩ : 0x61 ≤ c.toNat ∧ c.toNat ≤ 0x66 := lower
        cases h
        exact ⟨by omega, fun same => by omega⟩
    · split at h
      · next upper =>
          obtain ⟨least, most⟩ : 0x41 ≤ c.toNat ∧ c.toNat ≤ 0x46 := upper
          cases h
          exact ⟨by omega, fun same => by omega⟩
      · cases h

/-- An escape has more signs than what it stands for. -/
theorem countP_escape {a b : Char} {high low : Nat} (ha : hexValue? a = some high)
    (hb : hexValue? b = some low) :
    [Piece.byte (16 * high + low)].countP Piece.isSign < ['%', a, b].countP isSign := by
  have percent : isSign '%' = true := rfl
  rw [List.countP_singleton, List.countP_cons, if_pos percent, List.countP_cons,
    List.countP_singleton]
  split
  · next sign =>
      obtain ⟨highBound, highTwo⟩ := hexValue?_bounds ha
      obtain ⟨lowBound, lowTwo⟩ := hexValue?_bounds hb
      have percentCode : '%'.toNat = 0x25 := rfl
      have twoCode : '2'.toNat = 0x32 := rfl
      simp only [Piece.isSign, Bool.or_eq_true, beq_iff_eq] at sign
      rcases sign with isPercent | isTwo
      · rw [highTwo (by omega), if_pos (show isSign '2' = true from rfl)]
        omega
      · rw [lowTwo (by omega), if_pos (show isSign '2' = true from rfl)]
        omega
  · omega

/-- **Reading an escape takes a sign away**, and nothing else does. -/
theorem countP_pieces (s : List Char) :
    (pieces s).countP Piece.isSign ≤ s.countP isSign ∧
      (hasEscape s = true → (pieces s).countP Piece.isSign < s.countP isSign) := by
  induction length : s.length using Nat.strong_induction_on generalizing s with
  | _ n ih =>
      subst length
      cases s with
      | nil => exact ⟨Nat.le_refl _, nofun⟩
      | cons c rest =>
          rcases pieces_cases c rest with
            ⟨a, b, high, low, more, rfl, rfl, ha, hb, read, -⟩ | ⟨-, read, same⟩
          · have shorter : more.length < ('%' :: a :: b :: more).length := by simp; omega
            have later := (ih _ shorter more rfl).1
            have here := countP_escape ha hb
            have split : '%' :: a :: b :: more = ['%', a, b] ++ more := rfl
            rw [read, ← List.singleton_append, List.countP_append, split, List.countP_append]
            exact ⟨by omega, fun _ => by omega⟩
          · obtain ⟨least, fewer⟩ := ih _ (Nat.lt_succ_self _) rest rfl
            rw [read, same, List.countP_cons, List.countP_cons, isSign_pieceOf]
            exact ⟨Nat.add_le_add_right least _, fun h => Nat.add_lt_add_right (fewer h) _⟩

theorem countP_escape_segment (s : List Char) : (escape s).countP isSign = s.countP isSign := by
  induction s with
  | nil => rfl
  | cons c rest ih =>
      have here : (escapeChar c).countP isSign = [c].countP isSign := by
        rw [escapeChar]
        split
        · next tilde => rw [tilde]; rfl
        · split
          · next slash => rw [slash]; rfl
          · rfl
      rw [escape, List.flatMap_cons, ← escape, List.countP_append, here, ih,
        ← List.singleton_append (l := rest), List.countP_append]

theorem countP_unescape (s : List Char) : (unescape s).countP isSign = s.countP isSign := by
  induction s using unescape.induct with
  | case1 => rfl
  | case2 rest ih =>
      rw [unescape, List.countP_cons, List.countP_cons, List.countP_cons, ih]
      rfl
  | case3 rest ih =>
      rw [unescape, List.countP_cons, List.countP_cons, List.countP_cons, ih]
      rfl
  | case4 c rest slash tilde ih =>
      rw [unescape, List.countP_cons, List.countP_cons, ih]
      · exact slash
      · exact tilde

/-! ## Escapes of segments -/

/-- What an escaped text begins with is a digit exactly if the text begins with that digit. -/
theorem exists_escape_cons (c : Char) (rest : List Char) :
    ∃ d more, escape (c :: rest) = d :: more ∧ hexValue? d = hexValue? c ∧
      ((hexValue? c).isSome → d = c ∧ more = escape rest) := by
  have tilde : hexValue? '~' = none := by decide
  have slash : hexValue? '/' = none := by decide
  rw [escape, List.flatMap_cons, ← escape, escapeChar]
  split
  · next same =>
      rw [same, tilde]
      exact ⟨_, _, rfl, tilde, fun digit => absurd digit Bool.false_ne_true⟩
  · split
    · next same =>
        rw [same, slash]
        exact ⟨_, _, rfl, tilde, fun digit => absurd digit Bool.false_ne_true⟩
    · exact ⟨_, _, rfl, rfl, fun _ => ⟨rfl, rfl⟩⟩

/-- Whether a text begins with two hexadecimal digits. -/
def beginsWithDigits : List Char → Bool
  | a :: b :: _ => (hexValue? a).isSome && (hexValue? b).isSome
  | _ => false

theorem hasEscape_percent (rest : List Char) :
    hasEscape ('%' :: rest) = (beginsWithDigits rest || hasEscape rest) := by
  match rest with
  | [] => rfl
  | [a] =>
      rw [hasEscape]
      · rfl
      · nofun
  | a :: b :: more => rw [hasEscape, beginsWithDigits]

theorem beginsWithDigits_of_none {a : Char} (none : hexValue? a = none) (rest : List Char) :
    beginsWithDigits (a :: rest) = false := by
  cases rest with
  | nil => rfl
  | cons b more =>
      rw [beginsWithDigits, none]
      rfl

theorem beginsWithDigits_escape (s : List Char) :
    beginsWithDigits (escape s) = beginsWithDigits s := by
  cases s with
  | nil => rfl
  | cons a rest =>
      obtain ⟨d, more, head, same, kept⟩ := exists_escape_cons a rest
      rw [head]
      cases digit : hexValue? a with
      | none =>
          rw [beginsWithDigits_of_none digit, beginsWithDigits_of_none (same.trans digit)]
      | some high =>
          obtain ⟨rfl, rfl⟩ := kept (by rw [digit]; rfl)
          cases rest with
          | nil => rfl
          | cons b rest =>
              obtain ⟨e, more, head', same', -⟩ := exists_escape_cons b rest
              rw [head', beginsWithDigits, beginsWithDigits, same']

/-- Escaping a segment makes no percent escape and takes none away. -/
theorem hasEscape_escape (s : List Char) : hasEscape (escape s) = hasEscape s := by
  induction s with
  | nil => rfl
  | cons c rest ih =>
      by_cases percent : c = '%'
      · subst percent
        have front : escape ('%' :: rest) = '%' :: escape rest := rfl
        rw [front, hasEscape_percent, hasEscape_percent, beginsWithDigits_escape, ih]
      · rw [hasEscape_cons_of_ne percent, ← ih, escape, List.flatMap_cons, ← escape, escapeChar]
        split
        · rw [List.cons_append, List.singleton_append, hasEscape_cons_of_ne (by decide),
            hasEscape_cons_of_ne (by decide)]
        · split
          · rw [List.cons_append, List.singleton_append, hasEscape_cons_of_ne (by decide),
              hasEscape_cons_of_ne (by decide)]
          · rw [List.singleton_append, hasEscape_cons_of_ne percent]

/-- **A segment survives decoding** exactly if it has no escape. -/
theorem unescape_percentDecode_escape_iff {s : List Char} :
    unescape (percentDecode (escape s)) = s ↔ hasEscape s = false := by
  constructor
  · intro same
    by_contra escaped
    rw [Bool.not_eq_false, ← hasEscape_escape] at escaped
    have fewer := (countP_decodePieces isSound_none _).trans_lt ((countP_pieces _).2 escaped)
    rw [← percentDecode, countP_escape_segment, ← countP_unescape, same] at fewer
    exact Nat.lt_irrefl _ fewer
  · intro plain
    rw [percentDecode_of_hasEscape_eq_false ((hasEscape_escape s).trans plain), unescape_escape]

end RouteContract.Pointer
