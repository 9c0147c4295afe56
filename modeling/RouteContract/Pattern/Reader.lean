import RouteContract.Pattern.Basic
import RouteContract.Number.Numeral
import RouteContract.Text.Unicode.Identifier
import RouteContract.Text.Unicode.Alphanumeric

/-!
# Reading patterns

A pattern text is cut into symbols, a backslash and the character after it being one symbol, and the
symbols are read from left to right. The groups that are open stand on a stack; closing one makes a
term of its alternatives and puts it into the group around it. Characters are not called by their
names: an escape that names one breaks the syntax.
-/

namespace RouteContract.Pattern

set_option autoImplicit false

namespace Reader

/-! ## Symbols -/

/-- One symbol of a pattern text. -/
inductive Symbol where
  | plain (c : Char)
  | escaped (c : Char)
  /-- A backslash at the very end, an error for whoever reaches it. -/
  | dangling
deriving Repr, DecidableEq

/-- The symbols of a text. -/
def symbols : List Char → List Symbol
  | [] => []
  | ['\\'] => [.dangling]
  | '\\' :: c :: rest => .escaped c :: symbols rest
  | c :: rest => .plain c :: symbols rest

/-- A symbol as it stands in the text. -/
def Symbol.chars : Symbol → List Char
  | .plain c => [c]
  | .escaped c => ['\\', c]
  | .dangling => ['\\']

/-- The longest run of plain symbols of a class at the front, at most so many, and what follows. -/
def takeRun (p : Char → Bool) : Nat → List Symbol → List Char × List Symbol
  | 0, s => ([], s)
  | n + 1, .plain c :: rest =>
      if p c then
        let (run, after) := takeRun p n rest
        (c :: run, after)
      else ([], .plain c :: rest)
  | _ + 1, s => ([], s)

/-- The text up to a plain symbol, and what follows that symbol. The text must not be empty. -/
def takeUntil (stop : Char) : List Symbol → Option (List Char × List Symbol)
  | [] => none
  | .dangling :: _ => none
  | .plain c :: rest =>
      if c = stop then some ([], rest)
      else (takeUntil stop rest).map fun (name, after) => (c :: name, after)
  | .escaped c :: rest =>
      (takeUntil stop rest).map fun (name, after) => ('\\' :: c :: name, after)

/-- A name in front of a closing symbol. -/
def takeName (stop : Char) (s : List Symbol) : Except ReadError (List Char × List Symbol) :=
  match takeUntil stop s with
  | some (name, rest) => if name.isEmpty then .error .malformed else .ok (name, rest)
  | none => .error .malformed

/-! ## Widths -/

/-- The least and the greatest number of characters that a term matches; no greatest number when
there is no bound. -/
structure Width where
  least : Nat
  most : Option Nat
deriving Repr, DecidableEq

namespace Width

/-- No character. -/
def none : Width := ⟨0, some 0⟩

/-- One character. -/
def one : Width := ⟨1, some 1⟩

/-- One after the other. -/
def add (a b : Width) : Width :=
  ⟨a.least + b.least, a.most.bind fun m => b.most.map fun n => m + n⟩

/-- One or the other. -/
def either (a b : Width) : Width :=
  ⟨min a.least b.least, a.most.bind fun m => b.most.map fun n => max m n⟩

/-- Repeated. -/
def times (a : Width) (least : Nat) (most : Option Nat) : Width :=
  ⟨a.least * least,
    match a.most, most with
    | some 0, _ => some 0
    | some m, some n => some (m * n)
    | _, some 0 => some 0
    | _, _ => Option.none⟩

end Width

mutual
/-- The width of a term, given the widths of the groups it may refer to. -/
def width (groups : Nat → Width) : Term → Width
  | .char _ => .one
  | .any => .one
  | .set _ _ => .one
  | .anchor _ => .none
  | .sequence terms => widthSequence groups terms
  | .choice [] => .none
  | .choice (term :: rest) => widthChoice groups (width groups term) rest
  | .repetition _ least most body => (width groups body).times least most
  | .capture _ body => width groups body
  | .scope _ _ body => width groups body
  | .atomic body => width groups body
  | .lookAhead _ _ => .none
  | .lookBehind _ _ _ => .none
  | .backreference index => groups index
  | .conditional _ present absent => (width groups present).either (width groups absent)

/-- The width of terms one after the other. -/
def widthSequence (groups : Nat → Width) : List Term → Width
  | [] => .none
  | term :: rest => (width groups term).add (widthSequence groups rest)

/-- The width of a choice, given that of the alternatives before. -/
def widthChoice (groups : Nat → Width) (sofar : Width) : List Term → Width
  | [] => sofar
  | term :: rest => widthChoice groups (sofar.either (width groups term)) rest
end

/-! ## The state of a reader -/

/-- What opened a group. -/
inductive Opening where
  | root
  | capture (index : Nat)
  | plain
  | flagged (added removed : Flags)
  | atomic
  /-- With the group count at the outermost look-behind around it. -/
  | look (behind negated : Bool) (outer : Option Nat)
  | conditional (index : Nat)

/-- An open group: what has been read of it, in reverse. -/
structure Frame where
  opening : Opening
  /-- Whether blanks and comments are skipped in it. -/
  verbose : Bool
  alternatives : List Term
  terms : List Term

/-- What has been read of a pattern. -/
structure State where
  flags : Flags
  /-- The number of the next group. -/
  nextGroup : Nat
  names : Table Nat
  /-- The widths of the groups that are closed. -/
  widths : List (Nat × Width)
  /-- Inside a look-behind, the number of the first group that opened in it. -/
  lookBehindFrom : Option Nat
  /-- The largest group number that a conditional names. -/
  largestCondition : Nat
  /-- Whether every look-behind so far has one width. -/
  fixedLookBehinds : Bool
  top : Frame
  outer : List Frame

namespace State

/-- Put a term at the end of the innermost group. -/
def push (s : State) (term : Term) : State :=
  { s with top := { s.top with terms := term :: s.top.terms } }

/-- Whether a group is closed. -/
def isClosed (s : State) (index : Nat) : Bool := s.widths.any (·.1 == index)

/-- The width of a closed group. -/
def groupWidth (s : State) (index : Nat) : Width :=
  match s.widths.find? (·.1 == index) with
  | some entry => entry.2
  | none => .none

/-- Inside a look-behind only groups may be named that were closed before it. -/
def allowsReference (s : State) (index : Nat) : Bool :=
  match s.lookBehindFrom with
  | none => true
  | some first => s.isClosed index && index < first

/-- Open a group that reads on with the given skipping of blanks. -/
def openFrame (s : State) (opening : Opening) (verbose : Bool) : State :=
  { s with top := ⟨opening, verbose, [], []⟩, outer := s.top :: s.outer }

end State

/-! ## Escapes -/

/-- The number that hexadecimal digits spell. -/
def hexNumber (digits : List Char) : Nat :=
  digits.foldl
    (fun n c =>
      16 * n +
        (if c.isDigit then c.toNat - 0x30
        else if 'a' ≤ c then c.toNat - 0x61 + 10 else c.toNat - 0x41 + 10))
    0

/-- The number that octal digits spell. -/
def octalNumber (digits : List Char) : Nat :=
  digits.foldl (fun n c => 8 * n + (c.toNat - 0x30)) 0

/-- A hexadecimal digit. -/
def isHexDigit (c : Char) : Bool :=
  c.isDigit || ('a' ≤ c && c ≤ 'f') || ('A' ≤ c && c ≤ 'F')

/-- An octal digit. -/
def isOctalDigit (c : Char) : Bool := '0' ≤ c && c ≤ '7'

/-- An ASCII letter. -/
def isLetter (c : Char) : Bool := ('a' ≤ c && c ≤ 'z') || ('A' ≤ c && c ≤ 'Z')

/-- The code point that exactly so many hexadecimal digits spell. -/
def hexEscape (count : Nat) (rest : List Symbol) : Except ReadError (Nat × List Symbol) :=
  let (digits, after) := takeRun isHexDigit count rest
  if digits.length = count then .ok (hexNumber digits, after) else .error .malformed

/-- The control character of an escape that means one everywhere. -/
def controlEscape? (c : Char) : Option Nat :=
  if c == 'a' then some 7
  else if c == 'f' then some 12
  else if c == 'n' then some 10
  else if c == 'r' then some 13
  else if c == 't' then some 9
  else if c == 'v' then some 11
  else if c == '\\' then some 92
  else none

/-- The class of characters of an escape. -/
def categoryEscape? (c : Char) : Option ClassItem :=
  if c == 'd' then some (.category .digit false)
  else if c == 'D' then some (.category .digit true)
  else if c == 's' then some (.category .space false)
  else if c == 'S' then some (.category .space true)
  else if c == 'w' then some (.category .word false)
  else if c == 'W' then some (.category .word true)
  else none

/-- The condition on a position of an escape. -/
def anchorEscape? (c : Char) : Option Anchor :=
  if c == 'A' then some .textStart
  else if c == 'Z' then some .textEnd
  else if c == 'b' then some .boundary
  else if c == 'B' then some .nonBoundary
  else none

/-- An escape by number of digits, the same inside and outside of a class. -/
def numberedEscape? (c : Char) (rest : List Symbol) :
    Option (Except ReadError (Nat × List Symbol)) :=
  if c == 'x' then some (hexEscape 2 rest)
  else if c == 'u' then some (hexEscape 4 rest)
  else if c == 'U' then
    some <|
      match hexEscape 8 rest with
      | .error e => .error e
      | .ok (code, after) => if code < 0x110000 then .ok (code, after) else .error .malformed
  else none

/-- An escape inside a class. -/
def classEscape (c : Char) (rest : List Symbol) : Except ReadError (ClassItem × List Symbol) :=
  match controlEscape? c, categoryEscape? c, numberedEscape? c rest with
  | some code, _, _ => .ok (.char code, rest)
  | none, some item, _ => .ok (item, rest)
  | none, none, some result => result.map fun (code, after) => (.char code, after)
  | none, none, none =>
      if c == 'b' then .ok (.char 8, rest)
      else if isOctalDigit c then
        let (digits, after) := takeRun isOctalDigit 2 rest
        let code := octalNumber (c :: digits)
        if code ≤ 0xFF then .ok (.char code, after) else .error .malformed
      else if c.isDigit || isLetter c then .error .malformed
      else .ok (.char c.toNat, rest)

/-- A reference to a group by number. -/
def groupReference (s : State) (index : Nat) : Except ReadError Term :=
  if index < s.nextGroup && s.isClosed index && s.allowsReference index then
    .ok (.backreference index)
  else .error .malformed

/-- A number after a backslash: an octal escape or a reference to a group. -/
def digitEscape (s : State) (c : Char) (rest : List Symbol) :
    Except ReadError (Term × List Symbol) :=
  if c == '0' then
    let (digits, after) := takeRun isOctalDigit 2 rest
    .ok (.char (octalNumber (c :: digits)), after)
  else
    match rest with
    | .plain d :: afterTwo =>
        if d.isDigit then
          match afterTwo with
          | .plain e :: afterThree =>
              if isOctalDigit c && isOctalDigit d && isOctalDigit e then
                let code := octalNumber [c, d, e]
                if code ≤ 0xFF then .ok (.char code, afterThree) else .error .malformed
              else (groupReference s (Number.digitsValue [c, d])).map (·, afterTwo)
          | _ => (groupReference s (Number.digitsValue [c, d])).map (·, afterTwo)
        else (groupReference s (Number.digitsValue [c])).map (·, rest)
    | _ => (groupReference s (Number.digitsValue [c])).map (·, rest)

/-- An escape outside of a class. -/
def escape (s : State) (c : Char) (rest : List Symbol) : Except ReadError (Term × List Symbol) :=
  match anchorEscape? c, categoryEscape? c, controlEscape? c, numberedEscape? c rest with
  | some anchor, _, _, _ => .ok (.anchor anchor, rest)
  | none, some item, _, _ => .ok (.set false [item], rest)
  | none, none, some code, _ => .ok (.char code, rest)
  | none, none, none, some result => result.map fun (code, after) => (.char code, after)
  | none, none, none, none =>
      if c.isDigit then digitEscape s c rest
      else if isLetter c then .error .malformed
      else .ok (.char c.toNat, rest)

/-! ## Classes -/

/-- One end of a range, or an item by itself. -/
def classEnd : List Symbol → Except ReadError (ClassItem × List Symbol)
  | .plain c :: rest => .ok (.char c.toNat, rest)
  | .escaped c :: rest => classEscape c rest
  | _ => .error .malformed

/-- The items of a class up to its closing bracket. A bracket in the first place is an item. -/
def classItems : Nat → Bool → List Symbol → Except ReadError (List ClassItem × List Symbol)
  | 0, _, _ => .error .malformed
  | fuel + 1, first, s =>
      if !first && s.head? = some (.plain ']') then .ok ([], s.tail)
      else
        match classEnd s with
        | .error e => .error e
        | .ok (low, .plain '-' :: .plain ']' :: rest) => .ok ([low, .char 0x2D], rest)
        | .ok (low, .plain '-' :: rest) =>
            match low, classEnd rest with
            | .char a, .ok (.char b, after) =>
                if b < a then .error .malformed
                else (classItems fuel false after).map fun (items, last) =>
                  (.range a b :: items, last)
            | _, .error e => .error e
            | _, _ => .error .malformed
        | .ok (item, rest) =>
            (classItems fuel false rest).map fun (items, last) => (item :: items, last)

/-- A class after its opening bracket. -/
def bracketed (s : List Symbol) : Except ReadError (Term × List Symbol) :=
  let (negated, body) : Bool × List Symbol :=
    match s with
    | .plain '^' :: rest => (true, rest)
    | _ => (false, s)
  (classItems (s.length + 1) true body).map fun (items, rest) =>
    match items with
    | [.char code] => if negated then (.set true items, rest) else (.char code, rest)
    | _ => (.set negated items, rest)

/-! ## Repetitions -/

/-- Counts from this one on are refused. -/
def countLimit : Nat := 4294967295

/-- A count in braces; digits that are missing leave the default. -/
def count (digits : List Char) : Except ReadError (Option Nat) :=
  if digits.isEmpty then .ok none
  else if Number.digitLimit < digits.length then .error .invalidValue
  else
    let n := Number.digitsValue digits
    if countLimit ≤ n then .error .hugeCount else .ok (some n)

/-- The bounds of a repetition in braces after the opening one, or nothing when the brace is an
ordinary character. -/
def bounds? (s : List Symbol) :
    Option (Except ReadError (Nat × Option Nat × List Symbol)) :=
  if s.head? = some (.plain '}') then none
  else
    let (low, afterLow) := takeRun Char.isDigit s.length s
    let (high, rest) :=
      match afterLow with
      | .plain ',' :: more => takeRun Char.isDigit more.length more
      | _ => (low, afterLow)
    match rest with
    | .plain '}' :: after =>
        some <|
          if after.head? = some .dangling then .error .malformed
          else
            match count low, count high with
            | .error e, _ => .error e
            | _, .error e => .error e
            | .ok least, .ok most =>
                match most with
                | some m =>
                  if m < least.getD 0 then .error .malformed else .ok (least.getD 0, most, after)
                | none => .ok (least.getD 0, none, after)
    | _ => none

/-- Repeat the last term of the innermost group. -/
def applyRepetition (s : State) (least : Nat) (most : Option Nat) (rest : List Symbol) :
    Except ReadError (State × List Symbol) :=
  match s.top.terms with
  | [] => .error .malformed
  | .anchor _ :: _ => .error .malformed
  | .repetition _ _ _ _ :: _ => .error .malformed
  | body :: terms =>
      let (greed, after) : Greed × List Symbol :=
        match rest with
        | .plain '?' :: more => (.reluctant, more)
        | .plain '+' :: more => (.possessive, more)
        | _ => (.greedy, rest)
      let terms := .repetition greed least most body :: terms
      .ok ({ s with top := { s.top with terms := terms } }, after)

/-! ## Groups -/

/-- The switch of a letter. -/
def flagOf? (c : Char) : Option Flags :=
  if c == 'i' then some { ignoreCase := true }
  else if c == 'm' then some { multiline := true }
  else if c == 's' then some { dotAll := true }
  else if c == 'x' then some { verbose := true }
  else if c == 'a' then some { ascii := true }
  else if c == 'u' then some { unicode := true }
  else if c == 't' then some { template := true }
  else none

/-- How a list of switches in a group ends. -/
inductive FlagsEnd where
  | whole
  | scoped
  | removing
deriving DecidableEq

/-- The switches that a group turns on, in front of what ends the list. -/
def addedFlags (sofar : Flags) : List Symbol → Except ReadError (Flags × FlagsEnd × List Symbol)
  | .plain c :: rest =>
      match flagOf? c with
      | some flag =>
          let flags := sofar.union flag
          if flags.ascii && flags.unicode then .error .malformed
          else
            match rest with
            | .plain ')' :: after => .ok (flags, .whole, after)
            | .plain ':' :: after => .ok (flags, .scoped, after)
            | .plain '-' :: after => .ok (flags, .removing, after)
            | _ => addedFlags flags rest
      | none => .error .malformed
  | _ => .error .malformed

/-- The switches that a group turns off, in front of the colon. -/
def removedFlags (sofar : Flags) : List Symbol → Except ReadError (Flags × List Symbol)
  | .plain c :: rest =>
      match flagOf? c with
      | some flag =>
          if flag.ascii || flag.unicode then .error .malformed
          else
            let flags := sofar.union flag
            match rest with
            | .plain ':' :: after => .ok (flags, after)
            | _ => removedFlags flags rest
      | none => .error .malformed
  | _ => .error .malformed

/-- A group that changes switches: for the whole pattern at its very start, or for itself. -/
def openFlagged (s : State) (symbols : List Symbol) : Except ReadError (State × List Symbol) :=
  let added : Except ReadError (Flags × FlagsEnd × List Symbol) :=
    match symbols with
    | .plain '-' :: rest => .ok ({}, .removing, rest)
    | _ => addedFlags {} symbols
  match added with
  | .error e => .error e
  | .ok (flags, .whole, rest) =>
      if s.outer.isEmpty && s.top.alternatives.isEmpty && s.top.terms.isEmpty then
        let whole := s.flags.union flags
        .ok ({ s with flags := whole, top := { s.top with verbose := whole.verbose } }, rest)
      else .error .malformed
  | .ok (flags, .scoped, rest) =>
      if flags.template then .error .malformed
      else .ok (s.openFrame (.flagged flags {}) (s.top.verbose || flags.verbose), rest)
  | .ok (flags, .removing, rest) =>
      if flags.template then .error .malformed
      else
        match removedFlags {} rest with
        | .error e => .error e
        | .ok (removed, after) =>
            if removed.template || flags.meets removed then .error .malformed
            else
              let verbose := (s.top.verbose || flags.verbose) && !removed.verbose
              .ok (s.openFrame (.flagged flags removed) verbose, after)

/-- Open a group that captures, with or without a name. -/
def openCapture (s : State) (name? : Option String) (rest : List Symbol) :
    Except ReadError (State × List Symbol) :=
  let index := s.nextGroup
  let opened := (s.openFrame (.capture index) s.top.verbose)
  match name? with
  | none => .ok ({ opened with nextGroup := index + 1 }, rest)
  | some name =>
      if Table.has s.names name then .error .malformed
      else .ok ({ opened with nextGroup := index + 1, names := Table.put s.names name index }, rest)

/-- A reference to a group by name, after the sign that announces it. -/
def namedReference (s : State) (rest : List Symbol) : Except ReadError (State × List Symbol) :=
  match takeName ')' rest with
  | .error e => .error e
  | .ok (name, after) =>
      match Table.get? s.names (String.ofList name) with
      | some index =>
          if s.isClosed index && s.allowsReference index then
            .ok (s.push (.backreference index), after)
          else .error .malformed
      | none => .error .malformed

/-- The number of the group that a condition names. -/
def conditionGroup (s : State) (name : List Char) : Except ReadError (Nat × Bool) :=
  if Text.Unicode.isIdentifier name then
    match Table.get? s.names (String.ofList name) with
    | some index => .ok (index, false)
    | none => .error .malformed
  else
    match Number.readInteger name with
    | .ok (.ofNat n) => if n = 0 || 1073741823 ≤ n then .error .malformed else .ok (n, true)
    | _ => .error .malformed

/-- Open a conditional group. -/
def openConditional (s : State) (rest : List Symbol) : Except ReadError (State × List Symbol) :=
  match takeName ')' rest with
  | .error e => .error e
  | .ok (name, after) =>
      match conditionGroup s name with
      | .error e => .error e
      | .ok (index, byNumber) =>
          if s.allowsReference index then
            let largest := if byNumber then max s.largestCondition index else s.largestCondition
            let opened := s.openFrame (.conditional index) s.top.verbose
            .ok ({ opened with largestCondition := largest },
              after)
          else .error .malformed

/-- What follows a comment. -/
def afterComment : List Symbol → Except ReadError (List Symbol)
  | [] => .error .malformed
  | .dangling :: _ => .error .malformed
  | .plain ')' :: rest => .ok rest
  | _ :: rest => afterComment rest

/-- Open a look-around. -/
def openLook (s : State) (behind negated : Bool) (rest : List Symbol) : State × List Symbol :=
  let opened := s.openFrame (.look behind negated s.lookBehindFrom) s.top.verbose
  if behind then
    ({ opened with lookBehindFrom := some (s.lookBehindFrom.getD s.nextGroup) }, rest)
  else (opened, rest)

/-- A group after its opening parenthesis. -/
def openGroup (s : State) : List Symbol → Except ReadError (State × List Symbol)
  | .plain '?' :: rest =>
      match rest with
      | .plain 'P' :: .plain '<' :: more =>
          match takeName '>' more with
          | .error e => .error e
          | .ok (name, after) =>
              if Text.Unicode.isIdentifier name then openCapture s (some (String.ofList name)) after
              else .error .malformed
      | .plain 'P' :: .plain '=' :: more => namedReference s more
      | .plain ':' :: more => .ok (s.openFrame .plain s.top.verbose, more)
      | .plain '#' :: more => (afterComment more).map (s, ·)
      | .plain '=' :: more => .ok (openLook s false false more)
      | .plain '!' :: more => .ok (openLook s false true more)
      | .plain '<' :: .plain '=' :: more => .ok (openLook s true false more)
      | .plain '<' :: .plain '!' :: more => .ok (openLook s true true more)
      | .plain '(' :: more => openConditional s more
      | .plain '>' :: more => .ok (s.openFrame .atomic s.top.verbose, more)
      | _ => openFlagged s rest
  | rest => openCapture s none rest

/-! ## Closing a group -/

/-- The term of the alternatives of a group. -/
def Frame.term (frame : Frame) : Term :=
  match (Term.sequence frame.terms.reverse :: frame.alternatives).reverse with
  | [single] => single
  | several => .choice several

/-- Put a finished group into the one around it. -/
def closeFrame (s : State) (frame outer : Frame) (more : List Frame) : Except ReadError State :=
  let term := frame.term
  let back : State := { s with top := outer, outer := more }
  match frame.opening with
  | .root => .error .malformed
  | .capture index =>
      .ok ({ back with widths := (index, width s.groupWidth term) :: s.widths }.push
        (.capture index term))
  | .plain => .ok (back.push (.sequence [term]))
  | .flagged added removed => .ok (back.push (.scope added removed term))
  | .atomic => .ok (back.push (.atomic term))
  | .look behind negated outerFrom =>
      if behind then
        let w := width s.groupWidth term
        .ok ({ back with
          lookBehindFrom := outerFrom
          fixedLookBehinds := s.fixedLookBehinds && w.most == some w.least }.push
            (.lookBehind negated w.least term))
      else .ok (back.push (.lookAhead negated term))
  | .conditional index =>
      match frame.alternatives with
      | [] => .ok (back.push (.conditional index term (.sequence [])))
      | present :: _ =>
          .ok (back.push (.conditional index present (.sequence frame.terms.reverse)))

/-- Begin the next alternative of the innermost group. -/
def nextAlternative (s : State) : Except ReadError State :=
  let done := Term.sequence s.top.terms.reverse :: s.top.alternatives
  match s.top.opening, s.top.alternatives with
  | .conditional _, _ :: _ => .error .malformed
  | .root, _ =>
      .ok { s with top := { s.top with
        alternatives := done, terms := [], verbose := s.flags.verbose } }
  | _, _ => .ok { s with top := { s.top with alternatives := done, terms := [] } }

/-! ## The loop -/

/-- Blanks that a verbose pattern skips. -/
def isSkipped (c : Char) : Bool := c == ' ' || (0x09 ≤ c.toNat && c.toNat ≤ 0x0D)

/-- What follows a comment that ends with its line. -/
def afterLine : List Symbol → Except ReadError (List Symbol)
  | [] => .ok []
  | .dangling :: _ => .error .malformed
  | .plain '\n' :: rest => .ok rest
  | _ :: rest => afterLine rest

/-- Read one element of a pattern. -/
def step (s : State) : List Symbol → Except ReadError (State × List Symbol)
  | [] => .ok (s, [])
  | .dangling :: _ => .error .malformed
  | .escaped c :: rest => (escape s c rest).map fun (term, after) => (s.push term, after)
  | .plain c :: rest =>
      if c == '|' then (nextAlternative s).map (·, rest)
      else if c == ')' then
        match s.outer with
        | [] => .error .malformed
        | outer :: more => (closeFrame s s.top outer more).map (·, rest)
      else if s.top.verbose && isSkipped c then .ok (s, rest)
      else if s.top.verbose && c == '#' then (afterLine rest).map (s, ·)
      else if c == '[' then (bracketed rest).map fun (term, after) => (s.push term, after)
      else if c == '(' then openGroup s rest
      else if c == '?' then applyRepetition s 0 (some 1) rest
      else if c == '*' then applyRepetition s 0 none rest
      else if c == '+' then applyRepetition s 1 none rest
      else if c == '{' then
        match bounds? rest with
        | none => .ok (s.push (.char c.toNat), rest)
        | some (.error e) => .error e
        | some (.ok (least, most, after)) => applyRepetition s least most after
      else if c == '.' then .ok (s.push .any, rest)
      else if c == '^' then .ok (s.push (.anchor .lineStart), rest)
      else if c == '$' then .ok (s.push (.anchor .lineEnd), rest)
      else .ok (s.push (.char c.toNat), rest)

/-- Read elements to the end of the text. Each takes at least one symbol, so as many steps as there
are symbols suffice. -/
def run : Nat → State → List Symbol → Except ReadError State
  | _, s, [] => .ok s
  | 0, _, _ :: _ => .error .malformed
  | fuel + 1, s, symbols =>
      match step s symbols with
      | .error e => .error e
      | .ok (next, rest) => run fuel next rest

/-- The state before the first symbol. -/
def start (flags : Flags) : State :=
  { flags := flags, nextGroup := 1, names := [], widths := [], lookBehindFrom := none,
    largestCondition := 0, fixedLookBehinds := true,
    top := ⟨.root, flags.verbose, [], []⟩, outer := [] }

mutual
/-- Whether a term repeats anything. -/
def hasRepetition : Term → Bool
  | .repetition _ _ _ _ => true
  | .sequence terms => anyRepetition terms
  | .choice terms => anyRepetition terms
  | .capture _ body => hasRepetition body
  | .scope _ _ body => hasRepetition body
  | .atomic body => hasRepetition body
  | .lookAhead _ body => hasRepetition body
  | .lookBehind _ _ body => hasRepetition body
  | .conditional _ present absent => hasRepetition present || hasRepetition absent
  | _ => false

/-- Whether one of several terms repeats anything. -/
def anyRepetition : List Term → Bool
  | [] => false
  | term :: rest => hasRepetition term || anyRepetition rest
end

end Reader

open Reader in
/-- Read a pattern under flags. -/
def read (flags : Flags) (source : List Char) : Except ReadError Pattern :=
  let symbols := Reader.symbols source
  match Reader.run symbols.length (Reader.start flags) symbols with
  | .error e => .error e
  | .ok s =>
      if !s.outer.isEmpty then .error .malformed
      else if s.flags.ascii && s.flags.unicode then .error .invalidValue
      else if s.nextGroup ≤ s.largestCondition then .error .malformed
      else if !s.fixedLookBehinds then .error .malformed
      else
        let term := s.top.term
        if s.flags.template && Reader.hasRepetition term then .error .malformed
        else .ok ⟨term, { s.flags with unicode := !s.flags.ascii }, s.names⟩

end RouteContract.Pattern
