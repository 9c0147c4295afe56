import RouteContract.Text.Blank
import RouteContract.Text.Quoted

/-!
# JSON pointers

A pointer names a place inside a value by the keys and indexes that lead to it. Its segments are
written after one slash each, with `~` as `~0` and `/` as `~1`, so that pointers and lists of
segments correspond one to one. As the fragment of a reference a pointer stands after a hash sign,
where percent escapes may also occur.
-/

namespace RouteContract.Pointer

set_option autoImplicit false

/-! ## Segments -/

/-- How one character of a segment is written. -/
def escapeChar (c : Char) : List Char :=
  if c = '~' then ['~', '0'] else if c = '/' then ['~', '1'] else [c]

/-- A segment as it stands in a pointer. -/
def escape (segment : List Char) : List Char := segment.flatMap escapeChar

/-- The segment that was escaped. -/
def unescape : List Char → List Char
  | [] => []
  | '~' :: '1' :: rest => '/' :: unescape rest
  | '~' :: '0' :: rest => '~' :: unescape rest
  | c :: rest => c :: unescape rest

/-- Unescaping undoes escaping. -/
theorem unescape_escape (s : List Char) : unescape (escape s) = s := by
  induction s with
  | nil => rfl
  | cons c rest ih =>
    simp only [escape, List.flatMap_cons] at ih ⊢
    by_cases h₁ : c = '~'
    · subst h₁
      simp [escapeChar, unescape, ih]
    · by_cases h₂ : c = '/'
      · subst h₂
        simp [escapeChar, unescape, ih]
      · simp [escapeChar, h₁, h₂, unescape, ih]

/-! ## Pointers -/

/-- The pointer of a list of segments. -/
def renderChars (segments : List String) : List Char :=
  segments.flatMap fun segment => '/' :: escape segment.toList

/-- The pointer of a list of segments. -/
def render (segments : List String) : String := String.ofList (renderChars segments)

/-- A pointer as the fragment of a reference into the same document. -/
def fragment (segments : List String) : String := String.ofList ('#' :: renderChars segments)

/-! ## Steps -/

/-- A step into a value: by a key, or by an index. -/
inductive Step where
  | key (name : String)
  | index (position : Nat)
deriving Repr, DecidableEq

/-- A step as a segment of a pointer. -/
def Step.segment : Step → String
  | .key name => name
  | .index position => toString position

/-- The pointer of steps. -/
def ofSteps (steps : List Step) : String := render (steps.map Step.segment)

/-! ## Percent escapes -/

/-- A byte of an escaped text, or a character that stands for itself. -/
inductive Piece where
  | byte (value : Nat)
  | char (value : Char)

/-- The value of a hexadecimal digit. -/
def hexValue? (c : Char) : Option Nat :=
  if '0' ≤ c && c ≤ '9' then some (c.toNat - 0x30)
  else if 'a' ≤ c && c ≤ 'f' then some (c.toNat - 0x61 + 10)
  else if 'A' ≤ c && c ≤ 'F' then some (c.toNat - 0x41 + 10)
  else none

/-- A character as a byte when it is an ASCII one. -/
def pieceOf (c : Char) : Piece := if c.toNat < 0x80 then .byte c.toNat else .char c

/-- A text as bytes and characters: an escape is a byte, and so is an ASCII character. -/
def pieces : List Char → List Piece
  | [] => []
  | '%' :: a :: b :: rest =>
      match hexValue? a, hexValue? b with
      | some high, some low => .byte (16 * high + low) :: pieces rest
      | _, _ => .byte 0x25 :: pieces (a :: b :: rest)
  | c :: rest => pieceOf c :: pieces rest

/-- A character of several bytes that has begun: its bits so far, how many bytes are missing, and
the bounds of the next one. -/
structure Pending where
  bits : Nat
  missing : Nat
  low : Nat
  high : Nat

/-- The character that a text has in place of bytes that stand for none. -/
def replacement : Char := '\ufffd'

/-- What a byte at the beginning of a character yields. -/
def beginByte (b : Nat) : List Char × Option Pending :=
  if b < 0x80 then ([Char.ofNat b], none)
  else if 0xC2 ≤ b && b ≤ 0xDF then ([], some ⟨b - 0xC0, 1, 0x80, 0xBF⟩)
  else if 0xE0 ≤ b && b ≤ 0xEF then
    ([], some ⟨b - 0xE0, 2, if b = 0xE0 then 0xA0 else 0x80, if b = 0xED then 0x9F else 0xBF⟩)
  else if 0xF0 ≤ b && b ≤ 0xF4 then
    ([], some ⟨b - 0xF0, 3, if b = 0xF0 then 0x90 else 0x80, if b = 0xF4 then 0x8F else 0xBF⟩)
  else ([replacement], none)

/-- What a byte yields after what has begun. -/
def nextByte : Option Pending → Nat → List Char × Option Pending
  | none, b => beginByte b
  | some p, b =>
      if p.low ≤ b && b ≤ p.high then
        let bits := p.bits * 64 + (b - 0x80)
        if p.missing = 1 then ([Char.ofNat bits], none)
        else ([], some ⟨bits, p.missing - 1, 0x80, 0xBF⟩)
      else
        let (chars, pending) := beginByte b
        (replacement :: chars, pending)

/-- The text that bytes and characters spell. Bytes are read as UTF-8; where they spell no character
the replacement character stands. -/
def decodePieces : Option Pending → List Piece → List Char
  | pending, [] => if pending.isSome then [replacement] else []
  | pending, .char c :: rest =>
      (if pending.isSome then [replacement] else []) ++ c :: decodePieces none rest
  | pending, .byte b :: rest =>
      let (chars, next) := nextByte pending b
      chars ++ decodePieces next rest

/-- A text without its percent escapes. -/
def percentDecode (s : List Char) : List Char := decodePieces none (pieces s)

end RouteContract.Pointer
