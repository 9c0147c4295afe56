import Mathlib.Data.List.TakeWhile
import RouteContract.Proofs.Data.Table
import RouteContract.Proofs.Number.Numeral
import RouteContract.Proofs.Pattern.Reading
import RouteContract.Route.Matcher

/-!
# What templates are read as

The pattern of a template is read as written: a slash and the text of every literal segment, a slash
and a group for every parameter, and a slash at the end that may be missing (`read_ofTemplate`). It
is read unless two parameters have one name. A stored text is decoded where it has the stored form
(`decode?_eq_some_iff`), and a matcher that is stored is the matcher that is read back
(`decode?_encode`); so parsing the stored matcher of a template never ends in an error
(`parsePattern_ofTemplate`).
-/

namespace RouteContract.Route

set_option autoImplicit false

open Pattern Pattern.Reader

/-! ## Symbols -/

theorem symbols_cons {c : Char} (plain : c ≠ '\\') (text : List Char) :
    symbols (c :: text) = .plain c :: symbols text := by
  rw [symbols]
  · exact fun isBackslash _ => plain isBackslash
  · exact fun _ _ isBackslash _ => plain isBackslash

theorem symbols_append {run : List Char} (plain : '\\' ∉ run) (text : List Char) :
    symbols (run ++ text) = run.map Symbol.plain ++ symbols text := by
  induction run with
  | nil => rfl
  | cons c rest ih =>
      rw [List.mem_cons, not_or] at plain
      rw [List.cons_append, symbols_cons (Ne.symm plain.1), ih plain.2]
      rfl

/-- A character as a quoted text writes it. -/
def quotedSymbol (c : Char) : Symbol := if isSpecial c then .escaped c else .plain c

theorem symbols_quotePattern (text rest : List Char) :
    symbols (quotePattern text ++ rest) = text.map quotedSymbol ++ symbols rest := by
  induction text with
  | nil => rfl
  | cons c more ih =>
      rw [quotePattern] at ih ⊢
      rw [List.flatMap_cons, List.append_assoc, List.map_cons, List.cons_append, quotedSymbol]
      cases special : isSpecial c with
      | true =>
          rw [if_pos rfl, if_pos rfl, List.cons_append, List.singleton_append, symbols, ih]
      | false =>
          have plain : c ≠ '\\' := by
            rintro rfl
            exact nomatch special
          rw [if_neg Bool.false_ne_true, if_neg Bool.false_ne_true, List.singleton_append,
            symbols_cons plain, ih]

theorem pattern_literal (text : List Char) :
    (Segment.literal text).pattern = '/' :: quotePattern text := rfl

theorem pattern_parameter (name : List Char) :
    (Segment.parameter name).pattern = "/(?P<".toList ++ name ++ ">[^/#?]+?)".toList := rfl

/-! ## Literal segments -/

theorem toNat_of_isLetter {c : Char} (letter : isLetter c = true) :
    (0x61 ≤ c.toNat ∧ c.toNat ≤ 0x7A) ∨ (0x41 ≤ c.toNat ∧ c.toNat ≤ 0x5A) := by
  simp only [isLetter, Bool.or_eq_true, Bool.and_eq_true, decide_eq_true_eq, Char.le_def,
    UInt32.le_iff_toNat_le] at letter
  exact letter

/-- Special characters are neither digits nor letters. -/
theorem isDigit_isLetter_of_isSpecial {c : Char} (special : isSpecial c = true) :
    c.isDigit = false ∧ isLetter c = false := by
  simp only [isSpecial, Bool.or_eq_true, Bool.and_eq_true, decide_eq_true_eq,
    List.contains_eq_mem, List.mem_cons, List.not_mem_nil, or_false] at special
  rcases special with range | listed
  · refine ⟨Bool.eq_false_iff.2 fun digit => ?_, Bool.eq_false_iff.2 fun letter => ?_⟩
    · have bounds := Number.toNat_of_isDigit digit
      omega
    · have bounds := toNat_of_isLetter letter
      omega
  · rcases listed with rfl | rfl | rfl | rfl | rfl | rfl | rfl | rfl | rfl | rfl | rfl | rfl | rfl |
      rfl | rfl | rfl | rfl | rfl | rfl <;> exact ⟨rfl, rfl⟩

theorem not_mem_operators {c : Char} (h : isSpecial c = false) : c ∉ operators := by
  intro isOperator
  have special : operators.all isSpecial = true := by decide
  rw [List.all_eq_true.1 special c isOperator] at h
  exact nomatch h

theorem step_quotedSymbol {s : State} (calm : s.top.verbose = false) (c : Char)
    (rest : List Symbol) :
    step s (quotedSymbol c :: rest) = .ok (s.push (.char c.toNat), rest) := by
  rw [quotedSymbol]
  cases special : isSpecial c with
  | true =>
      obtain ⟨digit, letter⟩ := isDigit_isLetter_of_isSpecial special
      exact step_escaped digit letter
  | false => exact step_plain calm (not_mem_operators special)

/-! ## Parameter names -/

theorem toNat_of_isAlpha {c : Char} (alpha : c.isAlpha = true) :
    (0x41 ≤ c.toNat ∧ c.toNat ≤ 0x5A) ∨ (0x61 ≤ c.toNat ∧ c.toNat ≤ 0x7A) := by
  rcases (Bool.or_eq_true _ _).mp alpha with upper | lower
  · exact .inl (of_decide_eq_true upper)
  · obtain ⟨least, most⟩ := (Bool.and_eq_true _ _).mp lower
    exact .inr ⟨of_decide_eq_true least, of_decide_eq_true most⟩

theorem isNamePart_of_isNameStart {c : Char} (h : isNameStart c = true) : isNamePart c = true := by
  simp only [isNameStart, isNamePart, Char.isAlphanum, Bool.or_eq_true] at h ⊢
  exact h.imp_left .inl

theorem inIntervals_of_isNameStart {c : Char} (h : isNameStart c = true) :
    Text.Unicode.inIntervals Text.Unicode.identifierStartIntervals c.toNat = true := by
  rw [Text.Unicode.inIntervals_eq_true_iff]
  rw [isNameStart, Bool.or_eq_true, beq_iff_eq] at h
  rcases h with alpha | rfl
  · rcases toNat_of_isAlpha alpha with upper | lower
    · exact ⟨(0x41, 0x5A), .head _, upper⟩
    · exact ⟨(0x61, 0x7A), .tail _ (.tail _ (.head _)), lower⟩
  · exact ⟨(0x5F, 0x5F), .tail _ (.head _), Nat.le_refl _, Nat.le_refl _⟩

theorem inIntervals_of_isNamePart {c : Char} (h : isNamePart c = true) :
    Text.Unicode.inIntervals Text.Unicode.identifierPartIntervals c.toNat = true := by
  rw [Text.Unicode.inIntervals_eq_true_iff]
  rw [isNamePart, Char.isAlphanum, Bool.or_eq_true, Bool.or_eq_true, beq_iff_eq] at h
  rcases h with (alpha | digit) | rfl
  · rcases toNat_of_isAlpha alpha with upper | lower
    · exact ⟨(0x41, 0x5A), .tail _ (.head _), upper⟩
    · exact ⟨(0x61, 0x7A), .tail _ (.tail _ (.tail _ (.head _))), lower⟩
  · exact ⟨(0x30, 0x39), .head _, Number.toNat_of_isDigit digit⟩
  · exact ⟨(0x5F, 0x5F), .tail _ (.tail _ (.head _)), Nat.le_refl _, Nat.le_refl _⟩

theorem isNamePart_of_isName {name : List Char} (h : isName name = true) :
    ∀ c ∈ name, isNamePart c = true := by
  cases name with
  | nil => exact nomatch h
  | cons c rest =>
      rw [isName, Bool.and_eq_true, List.all_eq_true] at h
      exact List.forall_mem_cons.2 ⟨isNamePart_of_isNameStart h.1, h.2⟩

theorem not_mem_of_isName {name : List Char} (h : isName name = true) {c : Char}
    (other : isNamePart c = false) : c ∉ name := by
  intro member
  rw [isNamePart_of_isName h c member] at other
  exact nomatch other

/-- The name of a parameter may name a group. -/
theorem isIdentifier_of_isName {name : List Char} (h : isName name = true) :
    Text.Unicode.isIdentifier name = true := by
  cases name with
  | nil => exact nomatch h
  | cons c rest =>
      rw [isName, Bool.and_eq_true, List.all_eq_true] at h
      rw [Text.Unicode.isIdentifier, Bool.and_eq_true, List.all_eq_true]
      exact ⟨inIntervals_of_isNameStart h.1,
        fun d member => inIntervals_of_isNamePart (h.2 d member)⟩

/-! ## Parts of a template -/

/-- The term of a character. -/
def letterTerm (c : Char) : Term := .char c.toNat

/-- The term of a parameter: a group of characters other than a slash, a hash sign and a question
mark. -/
def fieldTerm (group : Nat) : Term :=
  .capture group (.sequence [.repetition .reluctant 1 none
    (.set true [.char '/'.toNat, .char '#'.toNat, .char '?'.toNat])])

namespace Segment

/-- The terms of a segment that takes part as a group with a given number. -/
def terms (group : Nat) : Segment → List Term
  | .literal text => ('/' :: text).map letterTerm
  | .parameter _ => [letterTerm '/', fieldTerm group]

/-- The name of a segment that is a parameter. -/
def names : Segment → List String
  | .literal _ => []
  | .parameter name => [String.ofList name]

/-- A parameter has an ASCII identifier as its name. -/
def IsProper : Segment → Prop
  | .literal _ => True
  | .parameter name => isName name = true

theorem isProper_ofText (text : List Char) : (ofText text).IsProper := by
  rw [ofText]
  cases found : parameterName? text with
  | none => trivial
  | some name =>
      rw [parameterName?] at found
      exact (Option.filter_eq_some_iff.1 found).2

end Segment

/-- The terms of segments, the first group among them having a given number. -/
def pathTerms : Nat → List Segment → List Term
  | _, [] => []
  | group, segment :: rest => segment.terms group ++ pathTerms (group + segment.names.length) rest

/-- The names of the parameters among segments. -/
def pathNames (segments : List Segment) : List String := segments.flatMap Segment.names

theorem isProper_of_mem_segments {template : String} {segment : Segment}
    (member : segment ∈ segments template) : segment.IsProper := by
  rw [segments, List.mem_map] at member
  obtain ⟨text, -, rfl⟩ := member
  exact Segment.isProper_ofText text

/-! ## Reading a template -/

/-- What has been read behind the first segments of a template: their terms, and groups with their
names. A group matches at least one character. -/
def behind (names : List String) (terms : List Term) : State where
  flags := { ignoreCase := true }
  nextGroup := names.length + 1
  names := names.zipIdx 1
  widths := ((names.zipIdx 1).map fun entry => (entry.2, ⟨1, none⟩)).reverse
  lookBehindFrom := none
  largestCondition := 0
  fixedLookBehinds := true
  top := ⟨.root, false, [], terms.reverse⟩
  outer := []

section Reading

variable {names : List String} {terms : List Term} {more : List Symbol}
  {result : Except ReadError State}

theorem push_behind (term : Term) :
    (behind names terms).push term = behind names (terms ++ [term]) := by
  simp only [behind, State.push, List.reverse_append, List.reverse_singleton, List.singleton_append]

theorem reads_quoted {text : List Char}
    (onward : Reads (behind names (terms ++ text.map letterTerm)) more result) :
    Reads (behind names terms) (text.map quotedSymbol ++ more) result := by
  induction text generalizing terms with
  | nil => rwa [List.map_nil, List.append_nil] at onward
  | cons c rest ih =>
      rw [List.map_cons, List.append_cons] at onward
      refine .step (step_quotedSymbol rfl c _) (Nat.le_refl _) ?_
      rw [push_behind]
      exact ih onward

theorem reads_slash {tail : List Char}
    (onward : Reads (behind names (terms ++ [letterTerm '/'])) (symbols tail) result) :
    Reads (behind names terms) (symbols ('/' :: tail)) result := by
  rw [symbols_cons (by decide)]
  refine .step (step_plain rfl (by decide)) (Nat.le_refl _) ?_
  rw [push_behind]
  exact onward

theorem reads_literal {text tail : List Char}
    (onward : Reads (behind names (terms ++ ('/' :: text).map letterTerm)) (symbols tail)
      result) :
    Reads (behind names terms) (symbols ((Segment.literal text).pattern ++ tail)) result := by
  rw [List.map_cons, List.append_cons] at onward
  rw [pattern_literal, List.cons_append]
  refine reads_slash ?_
  rw [symbols_quotePattern]
  exact reads_quoted onward

theorem symbols_parameter {name : List Char} (proper : isName name = true) (tail : List Char) :
    symbols ((Segment.parameter name).pattern ++ tail) =
      .plain '/' :: .plain '(' :: .plain '?' :: .plain 'P' :: .plain '<' ::
        (name.map Symbol.plain ++ .plain '>' :: .plain '[' :: .plain '^' :: .plain '/' ::
          .plain '#' :: .plain '?' :: .plain ']' :: .plain '+' :: .plain '?' :: .plain ')' ::
            symbols tail) := by
  have opening : '\\' ∉ "/(?P<".toList := by decide
  have closing : '\\' ∉ ">[^/#?]+?)".toList := by decide
  rw [pattern_parameter, List.append_assoc, List.append_assoc, symbols_append opening,
    symbols_append (not_mem_of_isName proper rfl), symbols_append closing]
  rfl

theorem has_names_behind (name : String) :
    Table.has (behind names terms).names name = true ↔ name ∈ names := by
  rw [Table.has_iff_mem_keys, behind, Table.keys, List.zipIdx_map_fst]

/-- The inside of the group of a parameter. -/
theorem reads_field {s : State} {group : Nat} {outer : Frame} {others : List Frame}
    {tail : List Char} (top : s.top = ⟨.capture group, false, [], []⟩)
    (around : s.outer = outer :: others)
    (onward : Reads (State.push { s with
      top := outer, outer := others, widths := (group, ⟨1, none⟩) :: s.widths } (fieldTerm group))
      (symbols tail) result) :
    Reads s (.plain '[' :: .plain '^' :: .plain '/' :: .plain '#' :: .plain '?' :: .plain ']' ::
      .plain '+' :: .plain '?' :: .plain ')' :: symbols tail) result := by
  obtain ⟨flags, nextGroup, names, widths, lookBehindFrom, largest, fixed, _, _⟩ := s
  subst top around
  refine .step rfl (by simp) ?_
  refine .step rfl (by simp) ?_
  exact .step (step_closeCapture rfl rfl) (Nat.le_refl _) onward

/-- The parameter of a name that no other parameter has is read as a group. -/
theorem reads_parameter {name tail : List Char} (proper : isName name = true)
    (new : String.ofList name ∉ names)
    (onward : Reads (behind (names ++ [String.ofList name])
      (terms ++ [letterTerm '/', fieldTerm (names.length + 1)])) (symbols tail) result) :
    Reads (behind names terms) (symbols ((Segment.parameter name).pattern ++ tail))
      result := by
  have calm : (behind names (terms ++ [letterTerm '/'])).top.verbose = false := rfl
  have opened := step_openNamed (isIdentifier_of_isName proper) (not_mem_of_isName proper rfl) calm
    (.plain '[' :: .plain '^' :: .plain '/' :: .plain '#' :: .plain '?' :: .plain ']' ::
      .plain '+' :: .plain '?' :: .plain ')' :: symbols tail)
  rw [if_neg fun isThere => new ((has_names_behind _).1 isThere)] at opened
  rw [symbols_parameter proper]
  refine .step (step_plain rfl (by decide)) (Nat.le_refl _) ?_
  rw [push_behind]
  refine .step opened (by simp; omega) ?_
  have written : Table.put (names.zipIdx 1) (String.ofList name) (names.length + 1) =
      (names ++ [String.ofList name]).zipIdx 1 := by
    rw [List.zipIdx_append, Table.put_of_not_mem, List.zipIdx_singleton, Nat.add_comm]
    rwa [Table.keys, List.zipIdx_map_fst]
  have same : State.push { (behind names (terms ++ [letterTerm '/'])).openNamed
      (String.ofList name) with
        top := (behind names (terms ++ [letterTerm '/'])).top, outer := [],
        widths := (names.length + 1, ⟨1, none⟩) ::
          (behind names (terms ++ [letterTerm '/'])).widths } (fieldTerm (names.length + 1)) =
      behind (names ++ [String.ofList name])
        (terms ++ [letterTerm '/', fieldTerm (names.length + 1)]) := by
    simp [State.push, State.openNamed, State.openFrame, behind, written, List.zipIdx_append,
      Nat.add_comm]
  exact reads_field rfl rfl (same ▸ onward)

/-- The parameter of a name that another parameter has breaks the syntax. -/
theorem reads_parameter_again {name tail : List Char} (proper : isName name = true)
    (again : String.ofList name ∈ names) :
    Reads (behind names terms) (symbols ((Segment.parameter name).pattern ++ tail))
      (.error .malformed) := by
  have calm : (behind names (terms ++ [letterTerm '/'])).top.verbose = false := rfl
  have opened := step_openNamed (isIdentifier_of_isName proper) (not_mem_of_isName proper rfl) calm
    (.plain '[' :: .plain '^' :: .plain '/' :: .plain '#' :: .plain '?' :: .plain ']' ::
      .plain '+' :: .plain '?' :: .plain ')' :: symbols tail)
  rw [if_pos ((has_names_behind _).2 again)] at opened
  rw [symbols_parameter proper]
  refine .step (step_plain rfl (by decide)) (Nat.le_refl _) ?_
  rw [push_behind]
  exact .error opened

/-- Segments whose parameters have different names are read one after the other. -/
theorem reads_segments {segments : List Segment} (proper : ∀ segment ∈ segments, segment.IsProper)
    (distinct : (names ++ pathNames segments).Nodup) {tail : List Char}
    (onward : Reads (behind (names ++ pathNames segments)
      (terms ++ pathTerms (names.length + 1) segments)) (symbols tail) result) :
    Reads (behind names terms) (symbols (segments.flatMap Segment.pattern ++ tail))
      result := by
  induction segments generalizing names terms with
  | nil =>
      rwa [pathNames, List.flatMap_nil, pathTerms, List.append_nil, List.append_nil] at onward
  | cons segment rest ih =>
      have properFirst := proper segment (List.mem_cons_self ..)
      have properRest := fun s member => proper s (List.mem_cons_of_mem segment member)
      rw [pathNames, List.flatMap_cons, ← List.append_assoc] at distinct onward
      rw [List.flatMap_cons, List.append_assoc]
      have later :
          Reads (behind (names ++ segment.names) (terms ++ segment.terms (names.length + 1)))
            (symbols (rest.flatMap Segment.pattern ++ tail)) result := by
        refine ih properRest distinct ?_
        rwa [pathTerms, ← List.append_assoc, Nat.add_right_comm, ← List.length_append] at onward
      cases segment with
      | literal text =>
          rw [Segment.names, List.append_nil] at later
          exact reads_literal later
      | parameter name =>
          refine reads_parameter properFirst ?_ later
          have front := distinct.of_append_left
          rw [Segment.names, List.nodup_append] at front
          exact fun member => front.2.2 _ member _ (List.mem_singleton_self _) rfl

/-- Segments two of whose parameters have one name break the syntax. -/
theorem reads_segments_again {segments : List Segment}
    (proper : ∀ segment ∈ segments, segment.IsProper) (distinct : names.Nodup)
    (again : ¬ (names ++ pathNames segments).Nodup) {tail : List Char} :
    Reads (behind names terms) (symbols (segments.flatMap Segment.pattern ++ tail))
      (.error .malformed) := by
  induction segments generalizing names terms with
  | nil => exact absurd (by rwa [pathNames, List.flatMap_nil, List.append_nil]) again
  | cons segment rest ih =>
      have properFirst := proper segment (List.mem_cons_self ..)
      have properRest := fun s member => proper s (List.mem_cons_of_mem segment member)
      rw [pathNames, List.flatMap_cons, ← List.append_assoc] at again
      rw [List.flatMap_cons, List.append_assoc]
      cases segment with
      | literal text =>
          rw [Segment.names, List.append_nil] at again
          exact reads_literal (ih properRest distinct again)
      | parameter name =>
          by_cases there : String.ofList name ∈ names
          · exact reads_parameter_again properFirst there
          · refine reads_parameter properFirst there (ih properRest ?_ again)
            exact distinct.append (List.nodup_singleton _) (by simpa using there)

end Reading

/-- The slash at the end of a template, which may be missing, and the end of the text. -/
theorem reads_end {names : List String} {terms : List Term} :
    Reads (behind names terms) (symbols "/?$".toList) (.ok (behind names
      (terms ++ [.repetition .greedy 0 (some 1) (letterTerm '/'), .anchor .lineEnd]))) := by
  have optional : step (behind names (terms ++ [letterTerm '/'])) [.plain '?', .plain '$'] =
      .ok (behind names (terms ++ [.repetition .greedy 0 (some 1) (letterTerm '/')]),
        [.plain '$']) := by
    simp [step, applyRepetition, behind, letterTerm]
  refine reads_slash (.step optional (Nat.le_refl _) (.step rfl (Nat.le_refl _) ?_))
  rw [push_behind, ← List.append_cons]
  exact .nil _

/-- The terms of a template. -/
def templateTerms (segments : List Segment) : List Term :=
  .anchor .lineStart :: pathTerms 1 segments ++
    [.repetition .greedy 0 (some 1) (letterTerm '/'), .anchor .lineEnd]

/-- The pattern of a template. -/
def templatePattern (segments : List Segment) : Pattern :=
  ⟨.sequence (templateTerms segments), { ignoreCase := true, unicode := true },
    (pathNames segments).zipIdx 1⟩

theorem reads_start {tail : List Char} {result : Except ReadError State}
    (onward : Reads (behind [] [.anchor .lineStart]) (symbols tail) result) :
    Reads (start { ignoreCase := true }) (symbols ('^' :: tail)) result := by
  have first : step (start { ignoreCase := true }) (.plain '^' :: symbols tail) =
      .ok (behind [] [.anchor .lineStart], symbols tail) := rfl
  rw [symbols_cons (by decide)]
  exact .step first (Nat.le_refl _) onward

theorem reads_template {segments : List Segment} (proper : ∀ segment ∈ segments, segment.IsProper)
    (distinct : (pathNames segments).Nodup) :
    Reads (start { ignoreCase := true })
      (symbols ('^' :: segments.flatMap Segment.pattern ++ "/?$".toList))
      (.ok (behind (pathNames segments) (templateTerms segments))) :=
  reads_start (reads_segments proper distinct reads_end)

theorem reads_template_again {segments : List Segment}
    (proper : ∀ segment ∈ segments, segment.IsProper) (again : ¬ (pathNames segments).Nodup) :
    Reads (start { ignoreCase := true })
      (symbols ('^' :: segments.flatMap Segment.pattern ++ "/?$".toList)) (.error .malformed) :=
  reads_start (reads_segments_again proper List.nodup_nil again)

theorem flags_ofTemplate (template : String) :
    (Matcher.ofTemplate template).flags.toList = ['i'] := by
  show "i".toList = ['i']
  rfl

/-- **The matcher of a template is read as written** unless two parameters have one name. -/
theorem compile_ofTemplate (template : String) :
    (Matcher.ofTemplate template).compile =
      if (pathNames (segments template)).Nodup then .ok (templatePattern (segments template))
      else .error .malformed := by
  have proper : ∀ segment ∈ segments template, segment.IsProper := fun segment member =>
    isProper_of_mem_segments member
  have flags : flagsOf ['i'] = { ignoreCase := true } := rfl
  have source : (Matcher.ofTemplate template).source.toList =
      '^' :: (segments template).flatMap Segment.pattern ++ "/?$".toList := by
    rw [Matcher.ofTemplate, String.toList_ofList]
  rw [Matcher.compile, flags_ofTemplate, flags, source, Pattern.read]
  by_cases distinct : (pathNames (segments template)).Nodup
  · rw [if_pos distinct, reads_template proper distinct _ (Nat.le_refl _)]
    simp [behind, templatePattern, Frame.term]
  · rw [if_neg distinct, reads_template_again proper distinct _ (Nat.le_refl _)]

/-! ## Stored matchers -/

theorem cutAtLast?_append {stop : Char} {front tail : List Char} (free : stop ∉ tail) :
    cutAtLast? stop (front ++ stop :: tail) = some (front, tail) := by
  have kept : ∀ c ∈ tail.reverse, (c != stop) = true := by
    intro c member
    rw [bne_iff_ne]
    rintro rfl
    exact free (List.mem_reverse.1 member)
  have backwards : (front ++ stop :: tail).reverse = tail.reverse ++ stop :: front.reverse := by
    rw [List.reverse_append, List.reverse_cons, List.append_assoc, List.singleton_append]
  rw [cutAtLast?, backwards, List.takeWhile_append_of_pos kept, List.dropWhile_append_of_pos kept,
    List.takeWhile_cons_of_neg (by simp), List.dropWhile_cons_of_neg (by simp)]
  simp

/-- A text that is cut at the last occurrence of a character has no other one behind it. -/
theorem cutAtLast?_eq_some_iff {stop : Char} {s front tail : List Char} :
    cutAtLast? stop s = some (front, tail) ↔ s = front ++ stop :: tail ∧ stop ∉ tail := by
  constructor
  · intro cut
    by_cases there : stop ∈ s
    · obtain ⟨behind, before, whole, free⟩ := List.eq_append_cons_of_mem (List.mem_reverse.2 there)
      have last : s = before.reverse ++ stop :: behind.reverse := by
        rw [← List.reverse_inj, whole]
        simp
      rw [← List.mem_reverse] at free
      rw [last, cutAtLast?_append free] at cut
      cases cut
      exact ⟨last, free⟩
    · have nowhere : s.reverse.dropWhile (· != stop) = [] := by
        rw [List.dropWhile_eq_nil_iff]
        intro c member
        rw [bne_iff_ne]
        rintro rfl
        exact there (List.mem_reverse.1 member)
      rw [cutAtLast?, nowhere] at cut
      cases cut
  · rintro ⟨rfl, free⟩
    exact cutAtLast?_append free

theorem dropLineFeed_eq_or (s : List Char) : s = dropLineFeed s ∨ s = dropLineFeed s ++ ['\n'] := by
  rw [dropLineFeed]
  split
  · next last =>
      right
      obtain ⟨front, rfl⟩ := List.getLast?_eq_some_iff.1 (beq_iff_eq.1 last)
      rw [List.dropLast_concat]
  · exact .inl rfl

theorem dropLineFeed_append {s feed : List Char} (free : '\n' ∉ s)
    (stop : feed = [] ∨ feed = ['\n']) : dropLineFeed (s ++ feed) = s := by
  rcases stop with rfl | rfl
  · rw [List.append_nil, dropLineFeed, if_neg]
    intro last
    exact free (List.mem_of_getLast? (beq_iff_eq.1 last))
  · rw [dropLineFeed, List.getLast?_concat, if_pos (beq_self_eq_true _), List.dropLast_concat]

/-- A text is a slash, a source, another slash and letters of flags, perhaps with a line feed behind
them. -/
structure IsStored (source letters text : List Char) : Prop where
  known : ∀ d ∈ letters, isFlagLetter d = true
  written : ∃ feed, (feed = [] ∨ feed = ['\n']) ∧ text = '/' :: source ++ '/' :: letters ++ feed

theorem not_mem_letters {letters : List Char} (known : ∀ d ∈ letters, isFlagLetter d = true)
    {d : Char} (other : isFlagLetter d = false) : d ∉ letters := by
  intro member
  rw [known d member] at other
  cases other

/-- A text is decoded as the matcher of which it is the stored form: it is cut at its last slash, as
no slash stands among the letters behind it. -/
theorem decode?_eq_some_iff {encoded : String} {m : Matcher} :
    Matcher.decode? encoded = some m ↔ IsStored m.source.toList m.flags.toList encoded.toList := by
  constructor
  · intro decoded
    rw [Matcher.decode?] at decoded
    split at decoded
    · next rest text =>
        split at decoded
        · next source letters cut =>
            dsimp only at decoded
            split at decoded
            · next known =>
                cases decoded
                obtain ⟨rfl, -⟩ := cutAtLast?_eq_some_iff.1 cut
                simp only [String.toList_ofList]
                refine ⟨List.all_eq_true.1 known, ?_⟩
                rw [text]
                rcases dropLineFeed_eq_or letters with same | same
                · exact ⟨[], .inl rfl, by simp [← same]⟩
                · exact ⟨['\n'], .inr rfl, by simp [← same]⟩
            · cases decoded
        · cases decoded
    · cases decoded
  · rintro ⟨known, feed, stop, written⟩
    have free : '/' ∉ m.flags.toList ++ feed := by
      rw [List.mem_append, not_or]
      refine ⟨not_mem_letters known rfl, ?_⟩
      rcases stop with rfl | rfl <;> decide
    have opened : encoded.toList = '/' :: (m.source.toList ++ '/' :: (m.flags.toList ++ feed)) := by
      simpa using written
    rw [Matcher.decode?, opened]
    simp only [cutAtLast?_append free, dropLineFeed_append (not_mem_letters known rfl) stop,
      List.all_eq_true.2 known, if_true, String.ofList_toList]

/-- **A matcher that is stored is read back.** -/
theorem decode?_encode (m : Matcher) (known : ∀ c ∈ m.flags.toList, isFlagLetter c = true) :
    Matcher.decode? m.encode = some m := by
  refine decode?_eq_some_iff.2 ⟨known, [], .inl rfl, ?_⟩
  rw [Matcher.encode, String.toList_ofList, List.append_nil]

/-- **The stored matcher of a template is never an error.** -/
theorem parsePattern_ofTemplate (template : String) :
    parsePattern (Matcher.ofTemplate template).encode =
      .ok (if (pathNames (segments template)).Nodup then some (templatePattern (segments template))
        else none) := by
  have known : ∀ c ∈ (Matcher.ofTemplate template).flags.toList, isFlagLetter c = true := by
    rw [flags_ofTemplate]
    intro c member
    rw [List.mem_singleton.1 member]
    rfl
  rw [parsePattern]
  simp only [decode?_encode _ known, compile_ofTemplate]
  by_cases distinct : (pathNames (segments template)).Nodup
  · rw [if_pos distinct, if_pos distinct]
  · rw [if_neg distinct, if_neg distinct]

end RouteContract.Route
