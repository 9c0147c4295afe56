import Mathlib.Data.List.Basic
import RouteContract.Pattern.Reader

/-!
# What patterns are read as

The reader takes a step for each element of a pattern and is given as many steps as there are
symbols. What symbols are read as is said here without that number (`Reads`), so that a pattern is
read part by part. The parts are characters that stand for themselves, as they are (`Reads.plain`)
or behind a backslash (`Reads.escaped`), repetitions, and named groups.
-/

namespace RouteContract.Pattern.Reader

set_option autoImplicit false

variable {s s' : State} {symbol : Symbol} {more rest : List Symbol}
  {result : Except ReadError State} {c : Char}

/-- Symbols are read as a result as soon as there are as many steps as symbols. -/
def Reads (s : State) (text : List Symbol) (result : Except ReadError State) : Prop :=
  ∀ fuel, text.length ≤ fuel → run fuel s text = result

namespace Reads

theorem nil (s : State) : Reads s [] (.ok s) := by
  intro fuel _
  cases fuel <;> rfl

theorem step (taken : Reader.step s (symbol :: more) = .ok (s', rest))
    (shorter : rest.length ≤ more.length) (onward : Reads s' rest result) :
    Reads s (symbol :: more) result := by
  intro fuel enough
  rw [List.length_cons] at enough
  cases fuel with
  | zero => exact absurd enough (Nat.not_succ_le_zero _)
  | succ fuel =>
      simp only [run, taken]
      exact onward fuel (by omega)

theorem error {e : ReadError} (taken : Reader.step s (symbol :: more) = .error e) :
    Reads s (symbol :: more) (.error e) := by
  intro fuel enough
  cases fuel with
  | zero => exact absurd enough (Nat.not_succ_le_zero _)
  | succ fuel => simp only [run, taken]

end Reads

/-! ## Characters -/

/-- Characters that are not read as themselves outside of a class. -/
def operators : List Char := ['|', ')', '[', '(', '?', '*', '+', '{', '.', '^', '$']

theorem step_plain (calm : s.top.verbose = false) (ordinary : c ∉ operators) :
    step s (.plain c :: more) = .ok (s.push (.char c.toNat), more) := by
  simp only [operators, List.mem_cons, List.not_mem_nil, or_false, not_or] at ordinary
  simp only [step, calm, ordinary, beq_iff_eq, Bool.false_and, Bool.false_eq_true, if_false]

/-- An escaped character other than a letter and a digit stands for itself. -/
theorem escape_self (digit : c.isDigit = false) (letter : isLetter c = false) :
    escape s c more = .ok (.char c.toNat, more) := by
  have other (d : Char) (h : isLetter d = true) : c ≠ d := by
    rintro rfl
    rw [letter] at h
    exact nomatch h
  have anchor : anchorEscape? c = none := by
    simp only [anchorEscape?, beq_iff_eq, other 'A' rfl, other 'Z' rfl, other 'b' rfl,
      other 'B' rfl, if_false]
  have category : categoryEscape? c = none := by
    simp only [categoryEscape?, beq_iff_eq, other 'd' rfl, other 'D' rfl, other 's' rfl,
      other 'S' rfl, other 'w' rfl, other 'W' rfl, if_false]
  have control : controlEscape? c = if c = '\\' then some 92 else none := by
    simp only [controlEscape?, beq_iff_eq, other 'a' rfl, other 'f' rfl, other 'n' rfl,
      other 'r' rfl, other 't' rfl, other 'v' rfl, if_false]
  have numbered : numberedEscape? c more = none := by
    simp only [numberedEscape?, beq_iff_eq, other 'x' rfl, other 'u' rfl, other 'U' rfl, if_false]
  rw [escape, anchor, category, control, numbered]
  by_cases backslash : c = '\\'
  · rw [if_pos backslash, backslash]
    rfl
  · rw [if_neg backslash]
    simp only [digit, letter, Bool.false_eq_true, if_false]

theorem step_escaped (digit : c.isDigit = false) (letter : isLetter c = false) :
    step s (.escaped c :: more) = .ok (s.push (.char c.toNat), more) := by
  rw [step, escape_self digit letter]
  rfl

/-! ## Named groups -/

theorem takeUntil_plain {stop : Char} {name : List Char} (free : stop ∉ name) :
    takeUntil stop (name.map Symbol.plain ++ .plain stop :: more) = some (name, more) := by
  induction name with
  | nil => rw [List.map_nil, List.nil_append, takeUntil, if_pos rfl]
  | cons c rest ih =>
      rw [List.mem_cons, not_or] at free
      rw [List.map_cons, List.cons_append, takeUntil, if_neg (Ne.symm free.1), ih free.2]
      rfl

/-- A state in which a named group has been opened. Blanks count in it. -/
def State.openNamed (s : State) (name : String) : State :=
  { s.openFrame (.capture s.nextGroup) false with
    nextGroup := s.nextGroup + 1, names := Table.put s.names name s.nextGroup }

/-- The opening of a named group: it must have a name that no other group has. -/
theorem step_openNamed {name : List Char} (named : Text.Unicode.isIdentifier name = true)
    (free : '>' ∉ name) (calm : s.top.verbose = false) (more : List Symbol) :
    step s (.plain '(' :: .plain '?' :: .plain 'P' :: .plain '<' ::
        (name.map Symbol.plain ++ .plain '>' :: more)) =
      if Table.has s.names (String.ofList name) then .error .malformed
      else .ok (s.openNamed (String.ofList name), more) := by
  have nonempty : name.isEmpty = false := by
    cases name with
    | nil => exact nomatch named
    | cons c rest => rfl
  have taken : takeName '>' (name.map Symbol.plain ++ .plain '>' :: more) = .ok (name, more) := by
    rw [takeName, takeUntil_plain free]
    simp only [nonempty, Bool.false_eq_true, if_false]
  simp only [step, calm, Char.reduceBEq, Bool.false_and, Bool.false_eq_true, if_false, if_true,
    openGroup, taken, named, openCapture]
  rfl

/-- The closing of a group that captures. -/
theorem step_closeCapture {index : Nat} {terms : List Term} {outer : Frame} {others : List Frame}
    (top : s.top = ⟨.capture index, false, [], terms⟩) (around : s.outer = outer :: others) :
    step s (.plain ')' :: more) =
      .ok (State.push { s with
        top := outer, outer := others
        widths := (index, width s.groupWidth (.sequence terms.reverse)) :: s.widths }
          (.capture index (.sequence terms.reverse)), more) := by
  simp only [step, Char.reduceBEq, Bool.false_eq_true, if_false, if_true, around, top, closeFrame]
  rfl

end RouteContract.Pattern.Reader
