import RouteContract.Proofs.Pattern.Exploration
import RouteContract.Proofs.Route.Reading
import RouteContract.Proofs.Route.Template

/-!
# What templates accept

A path is accepted by the pattern of a template exactly if it is a slash and a text for each segment
in turn, perhaps with one more slash behind them, where a literal segment accepts itself in any
letter case and a parameter accepts any text without slashes, hash signs and question marks
(`template_accepts`). Texts have no slashes in them, so a path is cut in one way only, and although
a pattern tries short texts first, what it finds is this one.
-/

set_option autoImplicit false

namespace RouteContract.Route

open Pattern

/-! ## Letters -/

/-- The flags of the patterns of templates. -/
def anyCase : Flags := { ignoreCase := true, unicode := true }

/-- Two characters are the same up to letter case, as patterns compare them. -/
def SameLetter (c d : Char) : Prop := matchesCode anyCase c.toNat d = true

instance (c d : Char) : Decidable (SameLetter c d) :=
  inferInstanceAs (Decidable (matchesCode anyCase c.toNat d = true))

theorem sameLetter_self (c : Char) : SameLetter c c := by
  rw [SameLetter, matchesCode]
  split
  · simp [foldClass, anyCase]
  · exact beq_self_eq_true _

theorem slash_sameLetter {d : Char} : SameLetter '/' d ↔ d = '/' := by
  have caseless : isCasedCode anyCase '/'.toNat = false := by decide
  rw [SameLetter, matchesCode, caseless, Bool.and_false, if_neg Bool.false_ne_true, beq_iff_eq,
    Char.toNat_inj]

/-- Lower-case letters come after the slash. -/
theorem slash_lt_lowerRuns :
    ∀ run ∈ Text.Unicode.lowerRuns, ('/'.toNat : Int) < run.first + run.distance := by
  decide +kernel

/-- Nothing but the slash has it as its lower case. -/
theorem eq_slash_of_foldCode {code : Nat} (folds : foldCode anyCase code = '/'.toNat) :
    code = '/'.toNat := by
  rw [foldCode, show anyCase.ascii = false from rfl, Bool.false_or] at folds
  have slash : '/'.toNat = 0x2F := rfl
  split at folds
  · split at folds
    · next upper =>
        simp only [isAsciiUpper, Bool.and_eq_true, decide_eq_true_eq] at upper
        omega
    · exact folds
  · rw [Text.Unicode.mapCase] at folds
    split at folds
    · next run found =>
        have covers := List.find?_some found
        have after := slash_lt_lowerRuns run (List.mem_of_find?_eq_some found)
        simp only [Text.Unicode.CaseRun.covers, Bool.and_eq_true, decide_eq_true_eq] at covers
        omega
    · exact folds

theorem slash_not_mem_twinsOf (code : Nat) : '/'.toNat ∉ twinsOf code := by
  have none : ∀ entry ∈ caseTwins, '/'.toNat ∉ entry.2 := by decide
  rw [twinsOf]
  split
  · next entry found => exact none entry (List.mem_of_find?_eq_some found)
  · exact List.not_mem_nil

theorem sameLetter_slash {c : Char} : SameLetter c '/' ↔ c = '/' := by
  constructor
  · intro same
    have folded : foldCode anyCase '/'.toNat = '/'.toNat := rfl
    rw [SameLetter, matchesCode] at same
    split at same
    · rw [folded, foldClass, if_neg (by decide), List.contains_iff_mem, List.mem_cons] at same
      rcases same with same | twin
      · exact Char.toNat_inj.1 (eq_slash_of_foldCode same.symm)
      · exact absurd twin (slash_not_mem_twinsOf _)
    · exact Char.toNat_inj.1 (beq_iff_eq.1 same).symm
  · rintro rfl
    exact sameLetter_self '/'

/-! ## Terms -/

theorem run_letterTerm (flags : Flags) (c : Char) :
    Term.run flags (letterTerm c) = matchOne (matchesCode flags c.toNat) := by
  funext cursor k
  rw [letterTerm, Term.run]

/-- Letters take the same letters. -/
theorem explores_letters (text : List Char) :
    Explores (runSequence anyCase (text.map letterTerm))
      (Takes (List.Forall₂ SameLetter text)) := by
  induction text with
  | nil =>
      refine Explores.done.congr fun c c' => ⟨?_, ?_⟩
      · rintro rfl
        exact ⟨[], .nil, Cursor.passes_nil.2 rfl⟩
      · rintro ⟨x, same, passes⟩
        cases same
        exact Cursor.passes_nil.1 passes
  | cons a text ih =>
      have first := explores_matchOne (matchesCode anyCase a.toNat)
      rw [← run_letterTerm] at first
      have both : Explores (runSequence anyCase ((a :: text).map letterTerm)) _ := first.comp ih
      refine both.congr fun c c' => takes_comp.trans ⟨?_, ?_⟩
      · rintro ⟨_, ⟨_, y, ⟨d, same, rfl⟩, more, rfl⟩, passes⟩
        exact ⟨_, .cons same more, passes⟩
      · rintro ⟨_, same, passes⟩
        obtain ⟨d, y, first, more, rfl⟩ := List.forall₂_cons_left_iff.1 same
        exact ⟨_, ⟨[d], y, ⟨d, first, rfl⟩, more, rfl⟩, passes⟩

/-- The texts that a parameter accepts. -/
def IsField (x : List Char) : Prop := x ≠ [] ∧ ∀ d ∈ x, d ≠ '/' ∧ d ≠ '#' ∧ d ≠ '?'

/-- The characters that a parameter accepts. -/
def isFieldLetter (d : Char) : Bool :=
  matchesSet anyCase true [.char '/'.toNat, .char '#'.toNat, .char '?'.toNat] d

theorem isFieldLetter_iff {d : Char} : isFieldLetter d = true ↔ d ≠ '/' ∧ d ≠ '#' ∧ d ≠ '?' := by
  have caseless : [ClassItem.char '/'.toNat, .char '#'.toNat, .char '?'.toNat].any
      (itemIsCased anyCase) = false := by decide
  rw [isFieldLetter, matchesSet, caseless, Bool.and_false, if_neg Bool.false_ne_true]
  simp only [List.any_cons, List.any_nil, itemHolds, Bool.or_false, bne_iff_ne, ne_eq,
    Bool.or_eq_true, beq_iff_eq, Char.toNat_inj, not_or]

theorem run_fieldTerm (group : Nat) :
    Term.run anyCase (fieldTerm group) = fun c k =>
      repeatBody .reluctant 1 none (matchOne isFieldLetter) (c.enter group) fun next =>
        k (next.leave group) := by
  funext c k
  simp only [fieldTerm, Term.run, runSequence]
  rfl

/-- A group takes a field. -/
theorem explores_fieldTerm (group : Nat) :
    Explores (Term.run anyCase (fieldTerm group))
      fun c c' => ∃ n, Takes IsField (c.enter group) n ∧ n.leave group = c' := by
  have same : (fun x => x ≠ [] ∧ ∀ d ∈ x, isFieldLetter d = true) = IsField := by
    funext x
    simp only [isFieldLetter_iff, IsField]
  rw [run_fieldTerm, ← same]
  exact (explores_oneOrMore isFieldLetter).capture group

/-- The slash at the end, which may be missing. -/
theorem explores_optionalSlash :
    Explores (Term.run anyCase (.repetition .greedy 0 (some 1) (letterTerm '/')))
      (Takes fun x => x = [] ∨ x = ['/']) := by
  have slash := (explores_matchOne (matchesCode anyCase '/'.toNat)).optional
  have run : Term.run anyCase (.repetition .greedy 0 (some 1) (letterTerm '/')) =
      repeatGreedily (matchOne (matchesCode anyCase '/'.toNat)) (some 1) := by
    funext c k
    rw [Term.run, run_letterTerm]
    rfl
  rw [run]
  refine slash.congr fun c c' => ⟨?_, ?_⟩
  · rintro (rfl | ⟨_, ⟨d, same, rfl⟩, passes⟩)
    · exact ⟨[], .inl rfl, Cursor.passes_nil.2 rfl⟩
    · exact ⟨[d], .inr (congrArg (fun d => [d]) (slash_sameLetter.1 same)), passes⟩
  · rintro ⟨_, rfl | rfl, passes⟩
    · exact .inl (Cursor.passes_nil.1 passes)
    · exact .inr ⟨_, ⟨'/', sameLetter_self '/', rfl⟩, passes⟩

theorem explores_anchor (flags : Flags) (anchor : Anchor) :
    Explores (Term.run flags (.anchor anchor))
      fun c c' => anchor.holds flags c = true ∧ c = c' := by
  have run : Term.run flags (.anchor anchor) =
      fun c k => if anchor.holds flags c then k c else none := by
    funext c k
    rw [Term.run]
  rw [run]
  exact .guard _

/-! ## Segments -/

/-- Whether a text may stand in the place of a segment. -/
def Segment.Accepts : Segment → List Char → Prop
  | .literal text, x => List.Forall₂ SameLetter text x
  | .parameter _, x => IsField x

/-- The cursors behind a segment and the slash before it. -/
def Segment.Leads (group : Nat) : Segment → Cursor → Cursor → Prop
  | .literal text => Takes (List.Forall₂ SameLetter ('/' :: text))
  | .parameter _ =>
      Relation.Comp (Takes (List.Forall₂ SameLetter ['/']))
        fun c c' => ∃ n, Takes IsField (c.enter group) n ∧ n.leave group = c'

theorem explores_segment (group : Nat) (segment : Segment) :
    Explores (runSequence anyCase (segment.terms group)) (segment.Leads group) := by
  cases segment with
  | literal text => exact explores_letters ('/' :: text)
  | parameter name =>
      have field : Explores (runSequence anyCase [fieldTerm group]) _ :=
        ((explores_fieldTerm group).comp .done).congr fun c c' => by rw [Relation.comp_eq]
      exact explores_append (explores_letters ['/']) field

/-- The cursors behind segments. -/
def PathLeads : Nat → List Segment → Cursor → Cursor → Prop
  | _, [] => Eq
  | group, segment :: rest =>
      Relation.Comp (segment.Leads group) (PathLeads (group + segment.names.length) rest)

theorem explores_path (group : Nat) (segments : List Segment) :
    Explores (runSequence anyCase (pathTerms group segments)) (PathLeads group segments) := by
  induction segments generalizing group with
  | nil =>
      have nothing : runSequence anyCase (pathTerms group []) = fun c k => k c := by
        funext c k
        rw [pathTerms, runSequence]
      rw [nothing]
      exact .done
  | cons segment rest ih => exact explores_append (explores_segment group segment) (ih _)

/-! ## What is recorded on the way -/

theorem mark?_cons_self (marks : List (Nat × Nat)) (index place : Nat) :
    Cursor.mark? ((index, place) :: marks) index = some place := by
  simp [Cursor.mark?]

theorem mark?_cons_of_ne {index other : Nat} (ne : index ≠ other) (marks : List (Nat × Nat))
    (place : Nat) : Cursor.mark? ((index, place) :: marks) other = Cursor.mark? marks other := by
  rw [Cursor.mark?, List.find?_cons_of_neg (by simpa using ne), Cursor.mark?]

/-- A cursor is behind another one, with a text between them in which groups with certain texts were
recorded, and no others. -/
structure Advance (c c' : Cursor) (x : List Char) (groups : List (Nat × List Char)) : Prop where
  rest : c.rest = x ++ c'.rest
  passed : c'.passed = x.reverse ++ c.passed
  recorded : ∀ entry ∈ groups, c'.group? entry.1 = some entry.2
  kept : ∀ index, index ∉ groups.map Prod.fst → c'.group? index = c.group? index

namespace Advance

variable {c n c' : Cursor} {x y : List Char} {first second : List (Nat × List Char)}

theorem text_eq (h : Advance c c' x first) : c'.text = c.text := by
  rw [Cursor.text, Cursor.text, h.passed, h.rest, List.reverse_append, List.reverse_reverse,
    List.append_assoc]

theorem refl (c : Cursor) : Advance c c [] [] := ⟨rfl, rfl, nofun, fun _ _ => rfl⟩

theorem trans (h : Advance c n x first) (h' : Advance n c' y second)
    (apart : ∀ entry ∈ first, entry.1 ∉ second.map Prod.fst) :
    Advance c c' (x ++ y) (first ++ second) where
  rest := by rw [h.rest, h'.rest, List.append_assoc]
  passed := by rw [h'.passed, h.passed, List.reverse_append, List.append_assoc]
  recorded entry listed := by
    rcases List.mem_append.1 listed with listed | listed
    · rw [h'.kept _ (apart entry listed)]
      exact h.recorded entry listed
    · exact h'.recorded entry listed
  kept index other := by
    rw [List.map_append, List.mem_append, not_or] at other
    rw [h'.kept index other.2, h.kept index other.1]

/-- Text outside of groups. -/
theorem of_passes (h : c.Passes x c') : Advance c c' x [] where
  rest := h.rest
  passed := h.passed
  recorded := nofun
  kept index _ := by
    rw [Cursor.group?, Cursor.group?, h.starts, h.ends, Cursor.text, Cursor.text, h.passed, h.rest,
      List.reverse_append, List.reverse_reverse, List.append_assoc]

/-- A text that is a group. -/
theorem of_group {group : Nat} (h : (c.enter group).Passes x n) :
    Advance c (n.leave group) x [(group, x)] where
  rest := h.rest
  passed := h.passed
  recorded := by
    rintro _ (_ | ⟨_, ⟨⟩⟩)
    have place : (n.leave group).position = x.length + c.position := by
      rw [Cursor.position, Cursor.leave, h.passed, List.length_append, List.length_reverse]
      rfl
    have text : (n.leave group).text = c.passed.reverse ++ (x ++ n.rest) := by
      rw [Cursor.text, Cursor.leave, h.passed, List.reverse_append, List.reverse_reverse,
        List.append_assoc]
      rfl
    have start : Cursor.mark? (n.leave group).starts group = some c.position := by
      rw [Cursor.leave, h.starts]
      exact mark?_cons_self ..
    have stop : Cursor.mark? (n.leave group).ends group = some (x.length + c.position) :=
      place ▸ mark?_cons_self ..
    have before : c.position = c.passed.reverse.length := (List.length_reverse ..).symm
    simp only [Cursor.group?, start, stop, text]
    rw [if_pos (Nat.le_add_left ..), Nat.add_sub_cancel, before, List.drop_left, List.take_left]
  kept index other := by
    have ne : group ≠ index := fun same => other (List.mem_singleton.2 same.symm)
    have text : (n.leave group).text = c.text := (of_passes h).text_eq
    have starts : Cursor.mark? (n.leave group).starts index = Cursor.mark? c.starts index := by
      rw [Cursor.leave, h.starts]
      exact mark?_cons_of_ne ne ..
    have ends : Cursor.mark? (n.leave group).ends index = Cursor.mark? c.ends index := by
      rw [Cursor.leave, h.ends]
      exact mark?_cons_of_ne ne ..
    rw [Cursor.group?, Cursor.group?, starts, ends, text]

end Advance

/-! ## Paths -/

/-- A path of texts, with a slash before each. -/
def pathText (texts : List (List Char)) : List Char := texts.flatMap ('/' :: ·)

/-- The group of a segment with a text. -/
def Segment.groups (group : Nat) : Segment → List Char → List (Nat × List Char)
  | .literal _, _ => []
  | .parameter _, x => [(group, x)]

/-- The groups of segments with texts. -/
def pathGroups : Nat → List Segment → List (List Char) → List (Nat × List Char)
  | group, segment :: rest, x :: xs =>
      segment.groups group x ++ pathGroups (group + segment.names.length) rest xs
  | _, _, _ => []

theorem le_of_mem_pathGroups {group : Nat} {segments : List Segment} {texts : List (List Char)}
    {index : Nat} (listed : index ∈ (pathGroups group segments texts).map Prod.fst) :
    group ≤ index := by
  induction segments generalizing group texts with
  | nil => cases listed
  | cons segment rest ih =>
      cases texts with
      | nil => cases listed
      | cons x xs =>
          rw [pathGroups, List.map_append, List.mem_append] at listed
          rcases listed with here | later
          · cases segment with
            | literal text => cases here
            | parameter name => exact (List.mem_singleton.1 here).ge
          · exact (Nat.le_add_right ..).trans (ih later)

theorem exists_of_forall₂_slash {text z : List Char}
    (same : List.Forall₂ SameLetter ('/' :: text) z) :
    ∃ x, z = '/' :: x ∧ List.Forall₂ SameLetter text x := by
  obtain ⟨d, x, slash, more, rfl⟩ := List.forall₂_cons_left_iff.1 same
  exact ⟨x, congrArg (· :: x) (slash_sameLetter.1 slash), more⟩

/-- What is behind a segment is behind a text that it accepts. -/
theorem Segment.Leads.advance {group : Nat} {segment : Segment} {c c' : Cursor}
    (leads : segment.Leads group c c') :
    ∃ x, segment.Accepts x ∧ Advance c c' ('/' :: x) (segment.groups group x) := by
  cases segment with
  | literal text =>
      obtain ⟨z, same, passes⟩ := leads
      obtain ⟨x, rfl, more⟩ := exists_of_forall₂_slash same
      exact ⟨x, more, .of_passes passes⟩
  | parameter name =>
      obtain ⟨n, ⟨z, same, slash⟩, n', ⟨x, field, passes⟩, rfl⟩ := leads
      obtain ⟨y, rfl, nothing⟩ := exists_of_forall₂_slash same
      cases nothing
      exact ⟨x, field, (Advance.of_passes slash).trans (.of_group passes) nofun⟩

/-- Each text that a segment accepts leads on. -/
theorem Segment.Accepts.leads {segment : Segment} {x rest : List Char} {c : Cursor}
    (accepts : segment.Accepts x) (group : Nat) (before : c.rest = '/' :: x ++ rest) :
    ∃ c', segment.Leads group c c' ∧ c'.rest = rest := by
  cases segment with
  | literal text =>
      obtain ⟨c', passes, left⟩ := Cursor.exists_passes before
      exact ⟨c', ⟨_, .cons (sameLetter_self '/') accepts, passes⟩, left⟩
  | parameter name =>
      obtain ⟨n, slash, left⟩ := Cursor.exists_passes (x := ['/']) before
      obtain ⟨c', passes, left⟩ := Cursor.exists_passes (c := n.enter group) left
      exact ⟨c'.leave group,
        ⟨n, ⟨_, .cons (sameLetter_self '/') .nil, slash⟩, c', ⟨x, accepts, passes⟩, rfl⟩, left⟩

theorem PathLeads.advance {group : Nat} {segments : List Segment} {c c' : Cursor}
    (leads : PathLeads group segments c c') :
    ∃ texts, List.Forall₂ Segment.Accepts segments texts ∧
      Advance c c' (pathText texts) (pathGroups group segments texts) := by
  induction segments generalizing group c with
  | nil =>
      cases leads
      exact ⟨[], .nil, .refl _⟩
  | cons segment rest ih =>
      obtain ⟨n, here, later⟩ := leads
      obtain ⟨x, accepts, first⟩ := here.advance
      obtain ⟨xs, all, second⟩ := ih later
      refine ⟨x :: xs, .cons accepts all, first.trans second fun entry listed again => ?_⟩
      -- The groups of later segments have higher numbers.
      cases segment with
      | literal text => cases listed
      | parameter name =>
          rw [List.mem_singleton.1 listed] at again
          exact Nat.not_succ_le_self _ (le_of_mem_pathGroups again)

theorem exists_pathLeads {segments : List Segment} {texts : List (List Char)}
    (accepts : List.Forall₂ Segment.Accepts segments texts) (group : Nat) {rest : List Char}
    {c : Cursor} (before : c.rest = pathText texts ++ rest) :
    ∃ c', PathLeads group segments c c' ∧ c'.rest = rest := by
  induction accepts generalizing group c with
  | nil => exact ⟨c, rfl, before⟩
  | cons first _ ih =>
      rw [pathText, List.flatMap_cons, List.append_assoc] at before
      obtain ⟨n, here, left⟩ := first.leads group before
      obtain ⟨c', later, left⟩ := ih _ left
      exact ⟨c', ⟨n, here, later⟩, left⟩

/-- A path is made up of texts for the segments of a template, with a slash before each and perhaps
one more slash at the end. -/
structure Fills (segments : List Segment) (texts : List (List Char)) (path : List Char) :
    Prop where
  accepts : List.Forall₂ Segment.Accepts segments texts
  slash : ∃ tail, (tail = [] ∨ tail = ['/']) ∧ path = pathText texts ++ tail

/-- The names of the parameters among segments, each with its text. -/
def parametersOf (segments : List Segment) (texts : List (List Char)) : Table (Option String) :=
  (segments.zip texts).filterMap fun
    | (.parameter name, x) => some (String.ofList name, some (String.ofList x))
    | (.literal _, _) => none

section Template

variable {segments : List Segment} {texts : List (List Char)} {path : List Char} {c c' : Cursor}

/-- The groups of a template are its parameters. -/
theorem map_zipIdx_pathNames (accepts : List.Forall₂ Segment.Accepts segments texts) {group : Nat}
    (recorded : ∀ entry ∈ pathGroups group segments texts, c.group? entry.1 = some entry.2) :
    ((pathNames segments).zipIdx group).map
        (fun entry => (entry.1, (c.group? entry.2).map String.ofList)) =
      parametersOf segments texts := by
  induction accepts generalizing group with
  | nil => rfl
  | @cons segment x rest xs _ _ ih =>
      have later := ih fun entry listed => recorded entry (List.mem_append_right _ listed)
      cases segment with
      | literal text => exact later
      | parameter name =>
          have here := recorded (group, x) (List.mem_append_left _ (List.mem_singleton_self _))
          rw [pathNames, List.flatMap_cons, Segment.names, List.singleton_append,
            List.zipIdx_cons, List.map_cons, here]
          exact congrArg _ later

/-- The cursors behind the pattern of a template. -/
theorem explores_template (segments : List Segment) :
    Explores (Term.run anyCase (.sequence (templateTerms segments))) fun c c' =>
      c.passed = [] ∧ ∃ n, PathLeads 1 segments c n ∧ Takes (fun x => x = [] ∨ x = ['/']) n c' ∧
        (c'.rest = [] ∨ c'.rest = ['\n']) := by
  have front : Explores (runSequence anyCase (.anchor .lineStart :: pathTerms 1 segments)) _ :=
    (explores_anchor anyCase .lineStart).comp (explores_path 1 segments)
  have back : Explores (runSequence anyCase
      [.repetition .greedy 0 (some 1) (letterTerm '/'), .anchor .lineEnd]) _ :=
    explores_optionalSlash.comp ((explores_anchor anyCase .lineEnd).comp .done)
  have run : Term.run anyCase (.sequence (templateTerms segments)) =
      runSequence anyCase (templateTerms segments) := by
    funext c k
    rw [Term.run]
  rw [run]
  refine (explores_append front back).congr fun c c' => ⟨?_, ?_⟩
  · rintro ⟨n, ⟨_, ⟨start, rfl⟩, leads⟩, _, slash, _, ⟨stop, rfl⟩, rfl⟩
    refine ⟨?_, n, leads, slash, ?_⟩
    · simpa [Anchor.holds, anyCase] using start
    · simpa [Anchor.holds, anyCase] using stop
  · rintro ⟨start, n, leads, slash, stop⟩
    refine ⟨n, ⟨c, ⟨?_, rfl⟩, leads⟩, c', slash, c', ⟨?_, rfl⟩, rfl⟩
    · simpa [Anchor.holds, anyCase] using start
    · simpa [Anchor.holds, anyCase] using stop

/-- What the pattern of a template finds are texts for its segments. -/
theorem fills_of_matchParameters? (unbroken : '\n' ∉ path) {found : Table (Option String)}
    (matched : (templatePattern segments).matchStart? path = some found) :
    ∃ texts, Fills segments texts path ∧ found = parametersOf segments texts := by
  rw [Pattern.matchStart?, Option.map_eq_some_iff] at matched
  obtain ⟨r, matched, rfl⟩ := matched
  obtain ⟨c', ⟨-, n, leads, ⟨tail, slash, passes⟩, stop⟩, found⟩ :=
    (explores_template segments).sound matched
  cases found
  obtain ⟨texts, accepts, advance⟩ := leads.advance
  have whole : path = pathText texts ++ (tail ++ r.rest) := by
    rw [← passes.rest, ← advance.rest]
    rfl
  have atEnd : r.rest = [] := by
    rcases stop with stop | stop
    · exact stop
    · rw [whole, stop] at unbroken
      simp at unbroken
  rw [atEnd, List.append_nil] at whole
  refine ⟨texts, ⟨accepts, tail, slash, whole⟩, map_zipIdx_pathNames accepts fun entry listed => ?_⟩
  rw [(Advance.of_passes passes).kept _ List.not_mem_nil]
  exact advance.recorded entry listed

/-- A path that is made up of texts for the segments is accepted. -/
theorem Fills.isSome_matchStart? (fills : Fills segments texts path) :
    ((templatePattern segments).matchStart? path).isSome := by
  rw [Pattern.matchStart?, Option.isSome_map]
  obtain ⟨tail, slash, whole⟩ := fills.slash
  obtain ⟨n, leads, left⟩ := exists_pathLeads fills.accepts 1 (c := .atStart path) whole
  obtain ⟨c', passes, stop⟩ := Cursor.exists_passes (left.trans (List.append_nil tail).symm)
  exact (explores_template segments).complete
    ⟨rfl, n, leads, ⟨tail, slash, passes⟩, .inl stop⟩ rfl

end Template

/-! ## One way only -/

/-- Only a text with a slash in it accepts one. -/
theorem slash_not_mem_of_sameLetters {text x : List Char} (same : List.Forall₂ SameLetter text x)
    (free : '/' ∉ text) : '/' ∉ x := by
  induction same with
  | nil => exact free
  | cons first _ ih =>
      rw [List.mem_cons, not_or] at free ⊢
      refine ⟨?_, ih free.2⟩
      rintro rfl
      exact free.1 (sameLetter_slash.1 first).symm

theorem isPart_of_accepts {segment : Segment} {x : List Char} (accepts : segment.Accepts x)
    (part : ∀ text, segment = .literal text → IsPart text) : IsPart x := by
  cases segment with
  | literal text =>
      obtain ⟨some, free⟩ := part text rfl
      refine ⟨?_, slash_not_mem_of_sameLetters accepts free⟩
      rintro rfl
      exact some (List.forall₂_nil_right_iff.1 accepts)
  | parameter name => exact ⟨accepts.1, fun member => (accepts.2 _ member).1 rfl⟩

/-- The text up to the next slash. -/
theorem takeWhile_part {x : List Char} (free : '/' ∉ x) {rest : List Char}
    (cut : rest = [] ∨ ∃ more, rest = '/' :: more) :
    (x ++ rest).takeWhile (· != '/') = x := by
  have kept : ∀ c ∈ x, (c != '/') = true := fun c member =>
    bne_iff_ne.2 fun same => free (same ▸ member)
  rw [List.takeWhile_append_of_pos kept]
  rcases cut with rfl | ⟨more, rfl⟩
  · exact List.append_nil x
  · rw [List.takeWhile_cons_of_neg (by decide), List.append_nil]

theorem pathText_cut (texts : List (List Char)) {tail : List Char}
    (slash : tail = [] ∨ tail = ['/']) :
    pathText texts ++ tail = [] ∨ ∃ more, pathText texts ++ tail = '/' :: more := by
  cases texts with
  | nil => exact slash.imp id fun h => ⟨[], h⟩
  | cons x xs => exact .inr ⟨_, rfl⟩

/-- A path is cut in one way only. -/
theorem eq_of_pathText {xs ys : List (List Char)} (hxs : ∀ x ∈ xs, IsPart x)
    (hys : ∀ y ∈ ys, IsPart y) {tail tail' : List Char} (slash : tail = [] ∨ tail = ['/'])
    (slash' : tail' = [] ∨ tail' = ['/'])
    (same : pathText xs ++ tail = pathText ys ++ tail') : xs = ys := by
  -- A slash at the end is no text: a text would have to be empty.
  have nothing : ∀ {x : List Char} {xs : List (List Char)} {tail tail' : List Char}, IsPart x →
      (tail' = [] ∨ tail' = ['/']) → pathText (x :: xs) ++ tail ≠ tail' := by
    rintro x xs tail _ part (rfl | rfl) same
    · cases same
    · rw [pathText, List.flatMap_cons, List.append_assoc] at same
      exact part.1 (List.append_eq_nil_iff.1 (List.cons.inj same).2).1
  induction xs generalizing ys with
  | nil =>
      cases ys with
      | nil => rfl
      | cons y ys => exact absurd same.symm (nothing (hys y (List.mem_cons_self ..)) slash)
  | cons x xs ih =>
      cases ys with
      | nil => exact absurd same (nothing (hxs x (List.mem_cons_self ..)) slash')
      | cons y ys =>
          obtain ⟨hx, hxs⟩ := List.forall_mem_cons.1 hxs
          obtain ⟨hy, hys⟩ := List.forall_mem_cons.1 hys
          rw [pathText, List.flatMap_cons, pathText, List.flatMap_cons, List.append_assoc,
            List.append_assoc, ← pathText, ← pathText] at same
          have behind : x ++ (pathText xs ++ tail) = y ++ (pathText ys ++ tail') :=
            (List.cons.inj same).2
          have first : x = y := by
            rw [← takeWhile_part hx.2 (pathText_cut xs slash), behind,
              takeWhile_part hy.2 (pathText_cut ys slash')]
          rw [first, List.append_cancel_left_eq] at behind
          rw [first, ih hxs hys behind]

theorem isPart_of_forall₂ {segments : List Segment} {texts : List (List Char)}
    (parts : ∀ text, .literal text ∈ segments → IsPart text)
    (accepts : List.Forall₂ Segment.Accepts segments texts) : ∀ x ∈ texts, IsPart x := by
  induction accepts with
  | nil => nofun
  | cons first _ ih =>
      refine List.forall_mem_cons.2
        ⟨isPart_of_accepts first fun text same => ?_, ih fun text later => ?_⟩
      · exact parts text (same ▸ List.mem_cons_self ..)
      · exact parts text (List.mem_cons_of_mem _ later)

theorem Fills.unique {segments : List Segment}
    (parts : ∀ text, .literal text ∈ segments → IsPart text) {texts other : List (List Char)}
    {path : List Char} (fills : Fills segments texts path) (fills' : Fills segments other path) :
    texts = other := by
  obtain ⟨tail, slash, whole⟩ := fills.slash
  obtain ⟨tail', slash', whole'⟩ := fills'.slash
  exact eq_of_pathText (isPart_of_forall₂ parts fills.accepts)
    (isPart_of_forall₂ parts fills'.accepts) slash slash' (whole.symm.trans whole')

/-! ## Templates -/

/-- **Templates accept what they say.** Take a template and a path without line breaks. The texts
between the slashes of the template are parameters when they are names behind a colon, in braces or
in angle brackets, and literal otherwise. The stored matcher of the template is refused exactly if
two parameters have one name, and never with an error. If it is read, it accepts the path exactly if
the path is made up of texts for the segments, a literal segment taking the same text in any letter
case and a parameter any text without slashes, hash signs and question marks; such texts are
determined by the path, and what is found is the text of each parameter under its name. -/
theorem template_accepts {template path : String} (unbrokenTemplate : '\n' ∉ template.toList)
    (unbrokenPath : '\n' ∉ path.toList) :
    List.Forall₂ Spells (partsOf template) (segments template) ∧
      (parsePattern (Matcher.ofTemplate template).encode = .ok none ↔
        ¬ (pathNames (segments template)).Nodup) ∧
      ((pathNames (segments template)).Nodup →
        ∃ p, parsePattern (Matcher.ofTemplate template).encode = .ok (some p) ∧
          ∀ found, matchParameters? p path = some found ↔
            ∃ texts, Fills (segments template) texts path.toList ∧
              found = parametersOf (segments template) texts) ∧
      ∀ texts other, Fills (segments template) texts path.toList →
        Fills (segments template) other path.toList → texts = other := by
  have unique : ∀ texts other, Fills (segments template) texts path.toList →
      Fills (segments template) other path.toList → texts = other :=
    fun texts other fills fills' => fills.unique (fun _ => isPart_of_mem_segments) fills'
  refine ⟨forall₂_spells unbrokenTemplate, ?_, fun distinct => ?_, unique⟩
  · rw [parsePattern_ofTemplate]
    by_cases distinct : (pathNames (segments template)).Nodup
    · simp [distinct]
    · simp [distinct]
  · refine ⟨templatePattern (segments template), ?_, fun found => ⟨?_, ?_⟩⟩
    · rw [parsePattern_ofTemplate, if_pos distinct]
    · exact fills_of_matchParameters? unbrokenPath
    · rintro ⟨texts, fills, read⟩
      obtain ⟨found', matched⟩ := Option.isSome_iff_exists.1 fills.isSome_matchStart?
      obtain ⟨other, fills', read'⟩ := fills_of_matchParameters? unbrokenPath matched
      rw [read, unique texts other fills fills', ← read']
      exact matched

/-- The template `/Users/:id/a.b` accepts `/users/4:2/A.B/`, with `4:2` for the parameter. -/
theorem userTemplate_accepts :
    '\n' ∉ "/Users/:id/a.b".toList ∧ '\n' ∉ "/users/4:2/A.B/".toList ∧
      ∃ p, parsePattern (Matcher.ofTemplate "/Users/:id/a.b").encode = .ok (some p) ∧
        matchParameters? p "/users/4:2/A.B/" = some [("id", some "4:2")] := by
  have template : '\n' ∉ "/Users/:id/a.b".toList := by decide
  have path : '\n' ∉ "/users/4:2/A.B/".toList := by decide
  have segments_eq : segments "/Users/:id/a.b" = [.literal ['U', 's', 'e', 'r', 's'],
      .parameter ['i', 'd'], .literal ['a', '.', 'b']] := by decide +kernel
  obtain ⟨-, -, read, -⟩ := template_accepts template path
  obtain ⟨p, parsed, matched⟩ := read (by rw [segments_eq]; decide)
  refine ⟨template, path, p, parsed, (matched _).2
    ⟨[['u', 's', 'e', 'r', 's'], ['4', ':', '2'], ['A', '.', 'B']], ?_, ?_⟩⟩
  · rw [segments_eq]
    refine ⟨.cons ?_ (.cons ?_ (.cons ?_ .nil)), ['/'], .inr rfl, by decide⟩
    · exact .cons (by decide) (.cons (by decide) (.cons (by decide) (.cons (by decide)
        (.cons (by decide) .nil))))
    · exact ⟨nofun, by simp⟩
    · exact .cons (by decide) (.cons (by decide) (.cons (by decide) .nil))
  · rw [segments_eq]
    rfl

end RouteContract.Route
