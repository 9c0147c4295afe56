import RouteContract.Pattern.Letter
import RouteContract.Pattern.Reader

/-!
# Matching

A backtracking matcher. A term is matched at a cursor and hands every cursor behind a match, in the
order of preference, to a continuation until the continuation succeeds. Repetition ends because a
round is followed by another one only if it took at least one character.

Main definitions: `Term.run` matches one term, `Pattern.matchStart?` a pattern at the front of a
text, and `Pattern.occursIn` says whether a pattern matches anywhere in a text.
-/

namespace RouteContract.Pattern

set_option autoImplicit false

/-! ## Cursors -/

/-- A position in a text, and where the groups matched so far begin and end. -/
structure Cursor where
  /-- The characters before the position, nearest first. -/
  passed : List Char
  /-- The characters after the position. -/
  rest : List Char
  /-- The latest beginning of each group that was entered. -/
  starts : List (Nat × Nat)
  /-- The latest end of each group that was left. -/
  ends : List (Nat × Nat)

/-- Behind a match there is a cursor, or the match fails. -/
abbrev Continuation := Cursor → Option Cursor

/-- A way to match: from a cursor, into a continuation. -/
abbrev Matching := Cursor → Continuation → Option Cursor

namespace Cursor

/-- The cursor at the front of a text. -/
def atStart (text : List Char) : Cursor := ⟨[], text, [], []⟩

/-- The number of characters before the cursor. -/
def position (c : Cursor) : Nat := c.passed.length

/-- The whole text. -/
def text (c : Cursor) : List Char := c.passed.reverse ++ c.rest

/-- The place recorded for a group. -/
def mark? (marks : List (Nat × Nat)) (index : Nat) : Option Nat :=
  (marks.find? (·.1 == index)).map Prod.snd

/-- Begin a group here. -/
def enter (c : Cursor) (index : Nat) : Cursor :=
  { c with starts := (index, c.position) :: c.starts }

/-- End a group here. -/
def leave (c : Cursor) (index : Nat) : Cursor :=
  { c with ends := (index, c.position) :: c.ends }

/-- The text of a group that took part in the match. -/
def group? (c : Cursor) (index : Nat) : Option (List Char) :=
  match mark? c.starts index, mark? c.ends index with
  | some start, some stop =>
      if start ≤ stop then some ((c.text.drop start).take (stop - start)) else none
  | _, _ => none

/-- The cursor some characters further back. -/
def back? : Nat → Cursor → Option Cursor
  | 0, c => some c
  | n + 1, c =>
      match c.passed with
      | [] => none
      | d :: passed => back? n { c with passed := passed, rest := d :: c.rest }

end Cursor

/-! ## Single steps -/

/-- Match one character of a class. -/
def matchOne (p : Char → Bool) : Matching := fun c k =>
  match c.rest with
  | [] => none
  | d :: rest => if p d then k { c with passed := d :: c.passed, rest := rest } else none

/-- Match a text, letter by letter. -/
def matchText (same : Char → Char → Bool) : List Char → Matching
  | [], c, k => k c
  | d :: more, c, k => matchOne (same d) c fun next => matchText same more next k

/-- Whether a word begins or ends at a cursor. A text without characters has neither. -/
def atBoundary (flags : Flags) (c : Cursor) : Option Bool :=
  let isWord := fun (d? : Option Char) => (d?.map (Category.word.holds flags)).getD false
  if c.passed.isEmpty && c.rest.isEmpty then none
  else some (isWord c.passed.head? != isWord c.rest.head?)

/-- Whether a condition on a position holds. -/
def Anchor.holds (flags : Flags) (c : Cursor) : Anchor → Bool
  | .lineStart => c.passed.isEmpty || (flags.multiline && c.passed.head? == some '\n')
  | .lineEnd =>
      c.rest.isEmpty || (if flags.multiline then c.rest.head? == some '\n' else c.rest == ['\n'])
  | .textStart => c.passed.isEmpty
  | .textEnd => c.rest.isEmpty
  | .boundary => atBoundary flags c == some true
  | .nonBoundary => atBoundary flags c == some false

/-! ## Repetition -/

/-- Match exactly so many rounds. -/
def repeatExactly (body : Matching) : Nat → Matching
  | 0, c, k => k c
  | n + 1, c, k => body c fun next => repeatExactly body n next k

/-- One round less of a bound. -/
def oneLess (limit : Option Nat) : Option Nat := limit.map (· - 1)

/-- Match as many further rounds as possible first. -/
def repeatGreedily (body : Matching) (limit : Option Nat) (c : Cursor) (k : Continuation) :
    Option Cursor :=
  let further :=
    if limit = some 0 then none
    else
      body c fun next =>
        if _h : next.rest.length < c.rest.length then repeatGreedily body (oneLess limit) next k
        else k next
  match further with
  | some found => some found
  | none => k c
termination_by c.rest.length

/-- Match as few further rounds as possible first. -/
def repeatReluctantly (body : Matching) (limit : Option Nat) (c : Cursor) (k : Continuation) :
    Option Cursor :=
  match k c with
  | some found => some found
  | none =>
      if limit = some 0 then none
      else
        body c fun next =>
          if _h : next.rest.length < c.rest.length then
            repeatReluctantly body (oneLess limit) next k
          else k next
termination_by c.rest.length

/-- Match as many further rounds as possible and keep each as it was first found. -/
def repeatPossessively (body : Matching) (limit : Option Nat) (c : Cursor) : Cursor :=
  if limit = some 0 then c
  else
    match body c some with
    | none => c
    | some next =>
        if _h : next.rest.length < c.rest.length then
          repeatPossessively body (oneLess limit) next
        else next
termination_by c.rest.length

/-- Match exactly so many rounds and keep each as it was first found. -/
def repeatCommitted (body : Matching) : Nat → Cursor → Option Cursor
  | 0, c => some c
  | n + 1, c => (body c some).bind (repeatCommitted body n)

/-- Match a repetition. -/
def repeatBody (greed : Greed) (least : Nat) (most : Option Nat) (body : Matching) : Matching :=
  fun c k =>
    let limit := most.map (· - least)
    match greed with
    | .greedy => repeatExactly body least c fun next => repeatGreedily body limit next k
    | .reluctant => repeatExactly body least c fun next => repeatReluctantly body limit next k
    | .possessive =>
        match repeatCommitted body least c with
        | none => none
        | some next => k (repeatPossessively body limit next)

/-! ## Terms -/

mutual
/-- Match a term. -/
def Term.run (flags : Flags) : Term → Matching
  | .char code, c, k => matchOne (matchesCode flags code) c k
  | .any, c, k => matchOne (matchesAny flags) c k
  | .set negated items, c, k => matchOne (matchesSet flags negated items) c k
  | .anchor anchor, c, k => if anchor.holds flags c then k c else none
  | .sequence terms, c, k => runSequence flags terms c k
  | .choice terms, c, k => runChoice flags terms c k
  | .repetition greed least most body, c, k =>
      repeatBody greed least most (Term.run flags body) c k
  | .capture index body, c, k =>
      Term.run flags body (c.enter index) fun next => k (next.leave index)
  | .scope added removed body, c, k => Term.run (flags.scoped added removed) body c k
  | .atomic body, c, k =>
      match Term.run flags body c some with
      | none => none
      | some next => k next
  | .lookAhead negated body, c, k =>
      match Term.run flags body c some with
      | none => if negated then k c else none
      | some next =>
          if negated then none else k { c with starts := next.starts, ends := next.ends }
  | .lookBehind negated width body, c, k =>
      match (c.back? width).bind fun earlier => Term.run flags body earlier some with
      | none => if negated then k c else none
      | some next =>
          if negated then none else k { c with starts := next.starts, ends := next.ends }
  | .backreference index, c, k =>
      match c.group? index with
      | none => none
      | some text => matchText (sameLetter flags) text c k
  | .conditional index present absent, c, k =>
      if (c.group? index).isSome then Term.run flags present c k else Term.run flags absent c k

/-- Match terms one after the other. -/
def runSequence (flags : Flags) : List Term → Matching
  | [], c, k => k c
  | term :: rest, c, k => Term.run flags term c fun next => runSequence flags rest next k

/-- Match the first of several terms that leads on. -/
def runChoice (flags : Flags) : List Term → Matching
  | [], _, _ => none
  | term :: rest, c, k =>
      match Term.run flags term c k with
      | some found => some found
      | none => runChoice flags rest c k
end

/-! ## Patterns -/

/-- The cursor behind the preferred match at a cursor. -/
def matchAt? (p : Pattern) (c : Cursor) : Option Cursor := p.term.run p.flags c some

/-- The named groups of the preferred match at the front of a text, each with its text if it took
part. -/
def matchStart? (p : Pattern) (text : List Char) : Option (Table (Option String)) :=
  (matchAt? p (Cursor.atStart text)).map fun found =>
    p.names.map fun entry => (entry.1, (found.group? entry.2).map String.ofList)

/-- Whether a pattern matches from one of the positions from a cursor on. -/
def occursFrom (p : Pattern) (passed : List Char) : List Char → Bool
  | [] => (matchAt? p ⟨passed, [], [], []⟩).isSome
  | c :: rest =>
      (matchAt? p ⟨passed, c :: rest, [], []⟩).isSome || occursFrom p (c :: passed) rest

/-- Whether a pattern matches anywhere in a text. -/
def occursIn (p : Pattern) (text : List Char) : Bool := occursFrom p [] text

end RouteContract.Pattern
