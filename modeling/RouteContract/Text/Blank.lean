/-!
# Blank characters and lines

Which characters are blank, how a text is trimmed of them, and where a text breaks into lines.
Both classes go beyond ASCII: the separators of Unicode and the four information separators of
ASCII are blank, and most of the vertical ones break a line.
-/

namespace RouteContract.Text

set_option autoImplicit false

/-- Blank characters: the spaces, the line breaks, and the information separators of ASCII. -/
def isBlank (c : Char) : Bool :=
  let n := c.toNat
  (0x09 ≤ n && n ≤ 0x0D) || (0x1C ≤ n && n ≤ 0x20) || n == 0x85 || n == 0xA0 || n == 0x1680 ||
    (0x2000 ≤ n && n ≤ 0x200A) || n == 0x2028 || n == 0x2029 || n == 0x202F || n == 0x205F ||
    n == 0x3000

/-! ## Trimming -/

/-- A text without the characters of a class at its end. -/
def dropRightWhile (p : Char → Bool) (s : List Char) : List Char :=
  ((s.reverse).dropWhile p).reverse

/-- A text without the characters of a class at both ends. -/
def dropAround (p : Char → Bool) (s : List Char) : List Char :=
  dropRightWhile p (s.dropWhile p)

/-- A text without blanks at both ends. -/
def trim (s : List Char) : List Char := dropAround isBlank s

/-- A text without blanks at both ends. -/
def trimmed (s : String) : String := String.ofList (trim s.toList)

/-! ## Lines -/

/-- Characters that end a line by themselves. -/
def isLineBreak (c : Char) : Bool :=
  let n := c.toNat
  (0x0A ≤ n && n ≤ 0x0D) || (0x1C ≤ n && n ≤ 0x1E) || n == 0x85 || n == 0x2028 || n == 0x2029

/-- The lines of a text without their breaks. A carriage return and the line feed after it are one
break, and a break at the very end opens no further line. -/
def lines : List Char → List (List Char)
  | [] => []
  | '\r' :: '\n' :: rest => [] :: lines rest
  | c :: rest =>
      if isLineBreak c then [] :: lines rest
      else
        match lines rest with
        | [] => [[c]]
        | line :: more => (c :: line) :: more

/-- The texts between the occurrences of one separator, at least one. -/
def splitAt (separator : Char) : List Char → List (List Char)
  | [] => [[]]
  | c :: rest =>
      if c = separator then [] :: splitAt separator rest
      else
        match splitAt separator rest with
        | [] => [[c]]
        | part :: more => (c :: part) :: more

theorem splitAt_cons (separator c : Char) (rest : List Char) :
    splitAt separator (c :: rest) =
      if c = separator then [] :: splitAt separator rest
      else
        match splitAt separator rest with
        | [] => [[c]]
        | part :: more => (c :: part) :: more :=
  rfl

/-- The text before the first occurrence of a character, or all of it. -/
def before (stop : Char) (s : List Char) : List Char := s.takeWhile (· != stop)

/-- Several texts with one text between each two of them. -/
def join (separator : List Char) : List (List Char) → List Char
  | [] => []
  | [s] => s
  | s :: rest => s ++ separator ++ join separator rest

end RouteContract.Text
