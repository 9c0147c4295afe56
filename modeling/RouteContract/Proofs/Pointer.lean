import Mathlib.Data.List.Basic
import RouteContract.Pointer
import RouteContract.Proofs.Number.Numeral

/-!
# Letters and segments of pointers

A text that is read letter by letter spells itself, percent escapes being the only other way to read
it. An escaped segment has no slash in it, so it is one part of the pointer; digits are written as
they stand.
-/

set_option autoImplicit false

namespace RouteContract.Pointer

/-! ## Percent escapes -/

theorem decodePieces_pieceOf (c : Char) (rest : List Piece) :
    decodePieces none (pieceOf c :: rest) = c :: decodePieces none rest := by
  rw [pieceOf]
  split
  · next ascii =>
      rw [decodePieces, nextByte, beginByte, if_pos ascii, Char.ofNat_toNat]
      rfl
  · rw [decodePieces]
    rfl

/-- A text that is read letter by letter spells itself. -/
theorem decodePieces_map_pieceOf (s : List Char) : decodePieces none (s.map pieceOf) = s := by
  induction s with
  | nil => rfl
  | cons c rest ih => rw [List.map_cons, decodePieces_pieceOf, ih]

/-! ## Segments -/

theorem slash_not_mem_escape (segment : List Char) : '/' ∉ escape segment := by
  intro member
  obtain ⟨c, -, written⟩ := List.mem_flatMap.1 member
  rw [escapeChar] at written
  split at written
  · exact absurd written (by decide)
  · split at written
    · exact absurd written (by decide)
    · next ne => exact ne (List.mem_singleton.1 written).symm

/-- Digits are written as they stand. -/
theorem escape_of_isDigits {s : List Char} (h : Number.IsDigits s) : escape s = s := by
  induction s with
  | nil => rfl
  | cons c rest ih =>
      have digit := h c (List.mem_cons_self ..)
      rw [escape, List.flatMap_cons, escapeChar, if_neg (Number.ne_of_isDigit digit rfl),
        if_neg (Number.ne_of_isDigit digit rfl), ← escape,
        ih fun d member => h d (List.mem_cons_of_mem _ member)]
      rfl

end RouteContract.Pointer
