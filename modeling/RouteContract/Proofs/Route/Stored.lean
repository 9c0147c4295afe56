import RouteContract.Proofs.Route.Matching

/-!
# Stored matchers

A matcher is stored as `/source/flags`, and the source may have slashes and line feeds in it. A
stored text is cut as the regular expression `^/(.*)/([aimsux]*)$` cuts it whose dot takes every
character (`decode?_eq_storedParts?`): the source runs to the last slash, since no slash stands
among the letters behind it. So a matcher that is stored is read back, and the regular expression
that a stored matcher stands for is the one that the matcher compiles to (`stored_unambiguous`).
-/

set_option autoImplicit false

namespace RouteContract.Route

open Pattern

/-! ## The stored form as a regular expression -/

/-- The flags of the stored form: the dot takes line feeds, too. -/
def formFlags : Flags := { dotAll := true, unicode := true }

/-- A group of as many rounds as possible. -/
def groupTerm (group : Nat) (body : Term) : Term :=
  .capture group (.sequence [.repetition .greedy 0 none body])

/-- One of the letters of flags. -/
def flagTerm : Term := .set false (['a', 'i', 'm', 's', 'u', 'x'].map fun c => .char c.toNat)

/-- A slash, the source, another slash, and the letters of the flags at the end of the text. -/
def formTerms : List Term :=
  [.anchor .lineStart, letterTerm '/', groupTerm 1 .any, letterTerm '/', groupTerm 2 flagTerm,
    .anchor .lineEnd]

/-- The stored form of matchers. -/
def storedForm : Pattern := ⟨.sequence formTerms, formFlags, []⟩

/-- The regular expression of the stored form. -/
def storedFormText : String := "^/(.*)/([aimsux]*)$"

theorem read_storedForm : Pattern.read { dotAll := true } storedFormText.toList = .ok storedForm := by
  rfl

/-- The source and the flags that the stored form finds in a text. -/
def storedParts? (encoded : String) : Option Matcher := do
  let form ← (Pattern.read { dotAll := true } storedFormText.toList).toOption
  let found ← form.matchAt? (.atStart encoded.toList)
  return ⟨String.ofList (← found.group? 1), String.ofList (← found.group? 2)⟩

/-! ## What the form takes -/

theorem run_any : Term.run formFlags .any = matchOne fun _ => true := by
  funext c k
  rw [Term.run]
  rfl

theorem run_flagTerm : Term.run formFlags flagTerm = matchOne isFlagLetter := by
  have same :
      matchesSet formFlags false (['a', 'i', 'm', 's', 'u', 'x'].map fun c => .char c.toNat) =
        isFlagLetter := by
    funext d
    have exact : formFlags.ignoreCase = false := rfl
    rw [matchesSet, exact, Bool.false_and, if_neg Bool.false_ne_true, Bool.eq_iff_iff]
    simp only [List.map_cons, List.map_nil, List.any_cons, List.any_nil, itemHolds, isFlagLetter,
      Bool.bne_false, Bool.or_false, Bool.or_eq_true, beq_iff_eq, Char.toNat_inj,
      List.contains_cons, List.contains_nil]
  funext c k
  rw [flagTerm, Term.run, same]

theorem explores_slash : Explores (Term.run formFlags (letterTerm '/')) (Takes (· = ['/'])) := by
  have only (d : Char) : matchesCode formFlags '/'.toNat d = true ↔ d = '/' := by
    rw [matchesCode, show formFlags.ignoreCase = false from rfl, Bool.false_and,
      if_neg Bool.false_ne_true, beq_iff_eq, Char.toNat_inj]
  have takes :
      (fun x => ∃ d, matchesCode formFlags '/'.toNat d = true ∧ x = [d]) = (· = ['/']) := by
    funext x
    simp only [only, exists_eq_left]
  have letter := explores_matchOne (matchesCode formFlags '/'.toNat)
  rwa [← run_letterTerm, takes] at letter

/-- The cursors behind a group that holds letters of a class. -/
def GroupLeads (p : Char → Bool) (group : Nat) (c c' : Cursor) : Prop :=
  ∃ n, Takes (fun x => ∀ d ∈ x, p d = true) (c.enter group) n ∧ n.leave group = c'

theorem explores_groupTerm {body : Term} {p : Char → Bool}
    (letter : Term.run formFlags body = matchOne p) (group : Nat) :
    Explores (Term.run formFlags (groupTerm group body)) (GroupLeads p group) := by
  have run : Term.run formFlags (groupTerm group body) = fun c k =>
      repeatBody .greedy 0 none (matchOne p) (c.enter group) fun next => k (next.leave group) := by
    funext c k
    simp only [groupTerm, Term.run, runSequence, letter]
  rw [run]
  exact (explores_zeroOrMore p).capture group

/-- There is a cursor behind every group that comes next. -/
theorem exists_groupLeads {p : Char → Bool} {x rest : List Char} {c : Cursor}
    (all : ∀ d ∈ x, p d = true) (group : Nat) (before : c.rest = x ++ rest) :
    ∃ c', GroupLeads p group c c' ∧ c'.rest = rest := by
  obtain ⟨n, passes, left⟩ := Cursor.exists_passes (c := c.enter group) before
  exact ⟨n.leave group, ⟨n, ⟨x, all, passes⟩, rfl⟩, left⟩

/-- The cursors behind the stored form. -/
def FormLeads (c c' : Cursor) : Prop :=
  c.passed = [] ∧ (c'.rest = [] ∨ c'.rest = ['\n']) ∧
    Relation.Comp (Takes (· = ['/']))
      (Relation.Comp (GroupLeads (fun _ => true) 1)
        (Relation.Comp (Takes (· = ['/'])) (GroupLeads isFlagLetter 2))) c c'

theorem explores_storedForm : Explores (Term.run formFlags (.sequence formTerms)) FormLeads := by
  have run : Term.run formFlags (.sequence formTerms) = runSequence formFlags formTerms := by
    funext c k
    rw [Term.run]
  have inside : Explores (runSequence formFlags
      [letterTerm '/', groupTerm 1 .any, letterTerm '/', groupTerm 2 flagTerm]) _ :=
    explores_slash.comp ((explores_groupTerm run_any 1).comp
      (explores_slash.comp ((explores_groupTerm run_flagTerm 2).comp .done)))
  have back : Explores (runSequence formFlags [.anchor .lineEnd]) _ :=
    (explores_anchor formFlags .lineEnd).comp .done
  have whole : Explores (runSequence formFlags formTerms) _ :=
    (explores_anchor formFlags .lineStart).comp (explores_append inside back)
  rw [run]
  refine whole.congr fun c c' => ?_
  simp only [Relation.comp_eq]
  constructor
  · rintro ⟨_, ⟨start, rfl⟩, n, leads, stop, rfl⟩
    refine ⟨?_, ?_, leads⟩
    · simpa [Anchor.holds, formFlags] using start
    · simpa [Anchor.holds, formFlags] using stop
  · rintro ⟨start, stop, leads⟩
    refine ⟨c, ⟨?_, rfl⟩, c', leads, ?_, rfl⟩
    · simpa [Anchor.holds, formFlags] using start
    · simpa [Anchor.holds, formFlags] using stop

/-! ## Texts of the stored form -/

/-- What the stored form takes is stored, and its groups are the source and the letters. -/
theorem FormLeads.isStored {text : List Char} {c' : Cursor}
    (leads : FormLeads (.atStart text) c') :
    ∃ source letters, IsStored source letters text ∧ c'.group? 1 = some source ∧
      c'.group? 2 = some letters := by
  obtain ⟨-, stop, n₁, ⟨_, rfl, slash⟩, n₂, ⟨m₁, ⟨source, -, passes⟩, rfl⟩, n₃,
    ⟨_, rfl, slash'⟩, m₂, ⟨letters, known, passes'⟩, rfl⟩ := leads
  have first := (Advance.of_passes slash).trans (Advance.of_group passes) nofun
  have second := (Advance.of_passes slash').trans (Advance.of_group passes') nofun
  have both := first.trans second (by simp)
  refine ⟨source, letters, ⟨known, _, stop, ?_⟩, both.recorded (1, source) ?_,
    both.recorded (2, letters) ?_⟩
  · have whole : text = _ := both.rest
    simpa using whole
  · exact List.mem_cons_self ..
  · exact List.mem_cons_of_mem _ (List.mem_cons_self ..)

/-- The stored form takes every text that is stored. -/
theorem IsStored.exists_leads {source letters text : List Char}
    (stored : IsStored source letters text) : ∃ c', FormLeads (.atStart text) c' := by
  obtain ⟨feed, stop, written⟩ := stored.written
  have start : (Cursor.atStart text).rest = ['/'] ++ (source ++ '/' :: (letters ++ feed)) := by
    simpa [Cursor.atStart] using written
  obtain ⟨n₁, slash, left₁⟩ := Cursor.exists_passes start
  obtain ⟨n₂, first, left₂⟩ := exists_groupLeads (fun _ _ => rfl) 1 left₁
  obtain ⟨n₃, slash', left₃⟩ := Cursor.exists_passes (x := ['/']) left₂
  obtain ⟨c', second, left⟩ := exists_groupLeads stored.known 2 left₃
  refine ⟨c', rfl, left ▸ stop, n₁, ⟨_, rfl, slash⟩, n₂, first, n₃, ⟨_, rfl, slash'⟩, second⟩

/-- **A stored text is cut as its form says.** -/
theorem decode?_eq_storedParts? (encoded : String) :
    Matcher.decode? encoded = storedParts? encoded := by
  rw [storedParts?, read_storedForm, Except.toOption, Option.bind_eq_bind, Option.bind_some]
  cases matched : storedForm.matchAt? (.atStart encoded.toList) with
  | none =>
      by_contra decoded
      obtain ⟨m, decoded⟩ := Option.ne_none_iff_exists'.1 decoded
      obtain ⟨c', leads⟩ := (decode?_eq_some_iff.1 decoded).exists_leads
      have found : (storedForm.matchAt? (.atStart encoded.toList)).isSome :=
        explores_storedForm.complete leads rfl
      rw [matched] at found
      cases found
  | some found =>
      obtain ⟨c', leads, same⟩ := explores_storedForm.sound matched
      cases same
      obtain ⟨source, letters, stored, first, second⟩ := leads.isStored
      have decoded : Matcher.decode? encoded =
          some ⟨String.ofList source, String.ofList letters⟩ := by
        rw [decode?_eq_some_iff]
        simpa only [String.toList_ofList] using stored
      rw [decoded]
      simp [first, second]

/-! ## Reading back -/

section Parsing

variable {encoded : String} {m : Matcher}

/-- A stored text is parsed as the pattern that its matcher compiles to. -/
theorem parsePattern_eq_some_iff (decoded : Matcher.decode? encoded = some m) {p : Pattern} :
    parsePattern encoded = .ok (some p) ↔ m.compile = .ok p := by
  rw [parsePattern, decoded]
  dsimp only
  cases m.compile with
  | ok q => simp
  | error e => cases e <;> simp

/-- A stored text is parsed as nothing where its matcher has no value, other than for a count that
is too large. -/
theorem parsePattern_eq_none_iff (decoded : Matcher.decode? encoded = some m) :
    parsePattern encoded = .ok none ↔
      m.compile = .error .malformed ∨ m.compile = .error .invalidValue := by
  rw [parsePattern, decoded]
  dsimp only
  cases m.compile with
  | ok q => simp
  | error e => cases e <;> simp

end Parsing

/-- **Stored matchers are unambiguous.** A matcher whose flags are known is cut out of its stored
form, both as the form says and when it is parsed, so that two such matchers have different stored
forms. What its stored form is parsed as is the pattern that the matcher compiles to; it is nothing
exactly if the source breaks the syntax or has a value that is not valid. -/
theorem stored_unambiguous {m : Matcher} (known : ∀ c ∈ m.flags.toList, isFlagLetter c = true) :
    storedParts? m.encode = some m ∧ Matcher.decode? m.encode = some m ∧
      (∀ other : Matcher, (∀ c ∈ other.flags.toList, isFlagLetter c = true) →
        other.encode = m.encode → other = m) ∧
      (∀ p, parsePattern m.encode = .ok (some p) ↔ m.compile = .ok p) ∧
      (parsePattern m.encode = .ok none ↔
        m.compile = .error .malformed ∨ m.compile = .error .invalidValue) := by
  have decoded := decode?_encode m known
  refine ⟨decode?_eq_storedParts? _ ▸ decoded, decoded, ?_,
    fun _ => parsePattern_eq_some_iff decoded, parsePattern_eq_none_iff decoded⟩
  intro other known' same
  have decoded' := decode?_encode other known'
  rw [same, decoded] at decoded'
  exact (Option.some.inj decoded').symm

/-- The start of a path, with a slash and letters behind it that look like flags, in any letter case
and over several lines. -/
def slashedMatcher : Matcher := ⟨"^/a/i\n", "im"⟩

theorem slashedMatcher_read_back :
    (∀ c ∈ slashedMatcher.flags.toList, isFlagLetter c = true) ∧
      slashedMatcher.encode = "/^/a/i\n/im" ∧
      storedParts? "/^/a/i\n/im" = some slashedMatcher ∧
      ∃ p, parsePattern "/^/a/i\n/im" = .ok (some p) ∧ slashedMatcher.compile = .ok p := by
  have letters : slashedMatcher.flags.toList.all isFlagLetter = true := rfl
  have known := List.all_eq_true.1 letters
  have encoded : slashedMatcher.encode = "/^/a/i\n/im" := rfl
  obtain ⟨parts, -, -, parsed, -⟩ := stored_unambiguous known
  rw [encoded] at parts parsed
  obtain ⟨p, compiled⟩ : ∃ p, slashedMatcher.compile = .ok p := ⟨_, rfl⟩
  exact ⟨known, encoded, parts, p, (parsed p).2 compiled, compiled⟩

end RouteContract.Route
