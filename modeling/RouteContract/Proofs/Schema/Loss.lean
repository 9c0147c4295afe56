import Mathlib
import RouteContract.Proofs.Pattern.Alternation
import RouteContract.Proofs.Schema.Report

/-!
# What a report loses

Whether a member is additional is decided twice. Evaluation tests its name against all patterns
joined into one, the report against each of them. Where the two disagree on every additional member,
the refusal has no entry, and a value that was refused counts as valid: the violation is lost
(`Violation.IsLost`). Nothing else is lost, and the entries of a report are those of its violations
in turn (`check_pieces`). Patterns without groups are not told apart by joining them
(`JoinsPlainly`); where a schema has no others, valid values are those without violations.
-/

set_option autoImplicit false

namespace RouteContract.Schema

open RouteContract Json Pointer

/-! ## Names that the report leaves out -/

section Names

variable {declared : Json} {patterns names : List String} {name : String} {b : Bool}

theorem someOccurs_iff (h : someOccurs name patterns = .ok b) :
    b = true ↔ ∃ source ∈ patterns, patternOccurs source name = .ok true := by
  induction patterns with
  | nil =>
      cases h
      simp
  | cons source rest ih =>
      rw [someOccurs] at h
      rw [List.exists_mem_cons_iff]
      split at h
      · cases h
      · next occurs =>
          cases h
          exact iff_of_true rfl (.inl occurs)
      · next misses =>
          rw [ih h, misses]
          simp

theorem isUncovered_iff (h : isUncovered declared patterns name = .ok b) :
    b = false ↔ namesContain declared name = .ok true ∨
      ∃ source ∈ patterns, patternOccurs source name = .ok true := by
  rw [isUncovered] at h
  split at h
  · cases h
  · next contained =>
      cases h
      exact iff_of_true rfl (.inl contained)
  · next missing =>
      obtain ⟨occurs, done, rfl⟩ := map_eq_ok_iff.1 h
      rw [Bool.not_eq_false', someOccurs_iff done, missing]
      simp

/-- No name is left uncovered exactly when each is declared or matched by a pattern of its own. -/
theorem uncoveredNames_eq_nil_iff {uncovered : List String}
    (h : uncoveredNames declared patterns names = .ok uncovered) :
    uncovered = [] ↔ ∀ name ∈ names, namesContain declared name = .ok true ∨
      ∃ source ∈ patterns, patternOccurs source name = .ok true := by
  induction names generalizing uncovered with
  | nil =>
      cases h
      simp
  | cons first rest ih =>
      rw [uncoveredNames] at h
      split at h
      · cases h
      · next b covered =>
          obtain ⟨more, done, rfl⟩ := map_eq_ok_iff.1 h
          rw [List.forall_mem_cons, ← isUncovered_iff covered, ← ih done]
          cases b <;> simp

end Names

/-! ## Lost violations -/

/-- A name that a schema declares, as the report sees it. -/
def IsDeclared (schema : List (String × Json)) (name : String) : Prop :=
  namesContain (tableUnder schema "properties") name = .ok true

/-- A name that one of the patterns of a schema matches by itself. -/
def IsMatchedAlone (schema : List (String × Json)) (name : String) : Prop :=
  ∃ patterns, tableUnder schema "patternProperties" = .obj patterns ∧
    ∃ source ∈ Table.keys patterns, patternOccurs source name = .ok true

/-- A violation that is reported by no entry: members were refused as additional, but each member is
declared or matched by a pattern by itself. -/
structure Violation.IsLost (e : Violation) : Prop where
  keyword : e.keyword = some "additionalProperties"
  refused : ∃ members extras, e.value = .obj members ∧
    additionalMembers e.schema members = .ok extras ∧ extras ≠ [] ∧
    ∀ name ∈ Table.keys members, IsDeclared e.schema name ∨ IsMatchedAlone e.schema name

variable {document v : Json} {e : Violation}

theorem additionalNames_eq_nil_iff {schema members : List (String × Json)} {names : List String}
    (h : additionalNames schema members = .ok names) :
    names = [] ↔
      ∀ name ∈ Table.keys members, IsDeclared schema name ∨ IsMatchedAlone schema name := by
  rw [additionalNames] at h
  split at h
  · next patterns table =>
      rw [uncoveredNames_eq_nil_iff h]
      simp only [IsDeclared, IsMatchedAlone, table, Json.obj.injEq, exists_eq_left']
  · cases h

/-- A violation of a schema document is lost exactly when it has no entry. -/
theorem entriesOf_eq_nil_iff_isLost {seen later : Seen} {entries : List Entry}
    (origin : e.IsFrom document) (done : entriesOf seen e = .ok (entries, later)) :
    entries = [] ↔ e.IsLost := by
  rw [entriesOf_eq_nil_iff done]
  constructor
  · rintro ⟨keyword, members, value, none⟩
    obtain ⟨extras, found, some⟩ := (origin _ keyword).additional rfl members value
    exact ⟨keyword, members, extras, value, found, some, (additionalNames_eq_nil_iff none).1 rfl⟩
  · rintro ⟨keyword, members, extras, value, found, some, covered⟩
    refine ⟨keyword, members, value, ?_⟩
    simp only [entriesOf, keyword, value] at done
    obtain ⟨names, named, -⟩ := map_eq_ok_iff.1 done
    rw [named, (additionalNames_eq_nil_iff named).2 covered]

/-- The entries of a report are those of the violations in turn, and a violation has none when it is
lost. -/
theorem reportFrom_pieces {seen : Seen} {found : List Violation} {entries : List Entry}
    (origin : ∀ e ∈ found, e.IsFrom document) (h : reportFrom seen found = .ok entries) :
    ∃ pieces, entries = pieces.flatten ∧
      List.Forall₂ (fun e piece => piece = [] ↔ e.IsLost) found pieces := by
  induction found generalizing seen entries with
  | nil =>
      cases h
      exact ⟨[], rfl, .nil⟩
  | cons e rest ih =>
      obtain ⟨first, others⟩ := List.forall_mem_cons.1 origin
      rw [reportFrom] at h
      split at h
      · cases h
      · next piece later done =>
          obtain ⟨more, rest_done, rfl⟩ := map_eq_ok_iff.1 h
          obtain ⟨pieces, rfl, each⟩ := ih others rest_done
          exact ⟨piece :: pieces, rfl, .cons (entriesOf_eq_nil_iff_isLost first done) each⟩

/-- A report is empty exactly when all its violations are lost. -/
theorem flatten_eq_nil_iff_isLost {found : List Violation} {pieces : List (List Entry)}
    (each : List.Forall₂ (fun e piece => piece = [] ↔ e.IsLost) found pieces) :
    pieces.flatten = [] ↔ ∀ e ∈ found, e.IsLost := by
  induction each with
  | nil => simp
  | cons lost _ ih => rw [List.flatten_cons, List.append_eq_nil_iff, List.forall_mem_cons, lost, ih]

/-! ## Patterns that can be joined -/

/-- A schema whose patterns mean the same joined as they do one by one: they are regular expressions
without groups, and not the empty one alone. -/
def JoinsPlainly (schema : List (String × Json)) : Prop :=
  ∀ patterns, Table.get? schema "patternProperties" = some (.obj patterns) →
    Table.keys patterns ≠ [""] ∧
      ∀ source ∈ Table.keys patterns, '(' ∉ source.toList ∧ ∃ p, readPattern source = .ok p

theorem read_of_readPattern {source : String} {p : Pattern} (h : readPattern source = .ok p) :
    Pattern.read {} source.toList = .ok p := by
  rw [readPattern] at h
  split at h
  · next read =>
      cases h
      exact read
  · cases h
  · cases h
  · cases h

theorem readPattern_of_read {source : String} {p : Pattern}
    (h : Pattern.read {} source.toList = .ok p) : readPattern source = .ok p := by
  rw [readPattern, h]

/-- Joined patterns occur where one of them does. -/
theorem readPattern_join {sources : List String} (some : sources ≠ [])
    (plain : ∀ source ∈ sources, '(' ∉ source.toList ∧ ∃ p, readPattern source = .ok p) :
    '(' ∉ ("|".intercalate sources).toList ∧
      ∃ p, readPattern ("|".intercalate sources) = .ok p ∧
        ∀ text, p.occursIn text = true ↔
          ∃ source ∈ sources, ∃ q, readPattern source = .ok q ∧ q.occursIn text = true := by
  induction sources with
  | nil => exact absurd rfl some
  | cons source rest ih =>
      obtain ⟨⟨ungrouped, p, read⟩, others⟩ := List.forall_mem_cons.1 plain
      cases rest with
      | nil =>
          refine ⟨ungrouped, p, read, fun text => ?_⟩
          simp [read]
      | cons next more =>
          obtain ⟨laterUngrouped, q, later, occurs⟩ := ih (List.cons_ne_nil _ _) others
          have joined : ("|".intercalate (source :: next :: more)).toList =
              source.toList ++ '|' :: ("|".intercalate (next :: more)).toList := by
            rw [String.intercalate_cons_cons]
            simp
          obtain ⟨r, whole, either⟩ := Pattern.read_bar ungrouped laterUngrouped
            (read_of_readPattern read) (read_of_readPattern later)
          refine ⟨?_, r, readPattern_of_read (joined ▸ whole), fun text => ?_⟩
          · rw [joined, List.mem_append, List.mem_cons, not_or, not_or]
            exact ⟨ungrouped, by decide, laterUngrouped⟩
          · rw [either, Bool.or_eq_true, occurs, List.exists_mem_cons_iff]
            simp [read]

theorem intercalate_eq_empty {sources : List String} (h : "|".intercalate sources = "") :
    sources = [] ∨ sources = [""] := by
  match sources with
  | [] => exact .inl rfl
  | [source] =>
      obtain rfl : source = "" := h
      exact .inr rfl
  | source :: next :: more =>
      rw [String.intercalate_cons_cons] at h
      have bar := congrArg String.toList h
      simp at bar

theorem texts_of_names (members : List (String × Json)) :
    (members.map fun entry => Json.str entry.1).mapM Json.text? = some (Table.keys members) := by
  induction members with
  | nil => rfl
  | cons entry rest ih =>
      rw [List.map_cons, List.mapM_cons, ih]
      rfl

theorem joinedPatterns_of_table {schema patterns : List (String × Json)}
    (stated : Table.get? schema "patternProperties" = some (.obj patterns)) :
    joinedPatterns schema = .ok ("|".intercalate (Table.keys patterns)) := by
  simp only [joinedPatterns, stated, elements, texts_of_names]

theorem patternOccurs_eq_true_iff {source name : String} :
    patternOccurs source name = .ok true ↔
      ∃ p, readPattern source = .ok p ∧ p.occursIn name.toList = true := by
  rw [patternOccurs, map_eq_ok_iff]

theorem namesContain_of_isAdditional {declared : Json} {patterns name : String}
    (h : isAdditional declared patterns name = .ok true) :
    namesContain declared name = .ok false ∧
      (patterns = "" ∨ patternOccurs patterns name = .ok false) := by
  rw [isAdditional] at h
  split at h
  · cases h
  · cases h
  · next missing =>
      refine ⟨missing, ?_⟩
      split at h
      · next empty => exact .inl (String.isEmpty_iff.1 empty)
      · obtain ⟨b, occurs, negated⟩ := map_eq_ok_iff.1 h
        rw [Bool.not_eq_true'] at negated
        exact .inr (negated ▸ occurs)

theorem not_isDeclared_of_isAdditional {schema : List (String × Json)} {patterns name : String}
    (h : isAdditional ((Table.get? schema "properties").getD (.obj [])) patterns name = .ok true) :
    ¬ IsDeclared schema name := by
  have missing := (namesContain_of_isAdditional h).1
  intro declared
  rw [IsDeclared, tableUnder] at declared
  cases stated : Table.get? schema "properties" with
  | none =>
      rw [stated] at declared
      cases declared
  | some x =>
      rw [stated, Option.getD_some] at missing
      simp only [stated] at declared
      split at declared
      · cases declared
      · rw [missing] at declared
        cases declared

theorem get?_of_tableUnder {schema members : List (String × Json)} {keyword : String}
    (table : tableUnder schema keyword = .obj members) (some : members ≠ []) :
    Table.get? schema keyword = Option.some (.obj members) := by
  rw [tableUnder] at table
  split at table
  · cases table
    exact absurd rfl some
  · next x stated =>
      split at table
      · cases table
        exact absurd rfl some
      · rw [stated, table]

/-- Where patterns mean the same joined, refused members are reported. -/
theorem not_isLost_of_joinsPlainly (plain : JoinsPlainly e.schema) : ¬ e.IsLost := by
  rintro ⟨-, members, extras, -, found, some, covered⟩
  obtain ⟨entry, listed⟩ := List.exists_mem_of_ne_nil extras some
  rw [additionalMembers] at found
  split at found
  · cases found
  · next joined done =>
      have extra := (mem_keepIf found listed).2
      rcases covered entry.1.1 (Table.mem_keys_of_mem entry.2) with declared | matched
      · exact not_isDeclared_of_isAdditional extra declared
      · obtain ⟨patterns, table, source, among, occurs⟩ := matched
        have stated := get?_of_tableUnder table (by rintro rfl; cases among)
        obtain ⟨alone, each⟩ := plain patterns stated
        have nonempty : Table.keys patterns ≠ [] := List.ne_nil_of_mem among
        rw [joinedPatterns_of_table stated] at done
        cases done
        rcases (namesContain_of_isAdditional extra).2 with empty | misses
        · exact (intercalate_eq_empty empty).elim nonempty alone
        · obtain ⟨-, p, read, either⟩ := readPattern_join nonempty each
          have occurs := (either _).2 ⟨source, among, patternOccurs_eq_true_iff.1 occurs⟩
          rw [patternOccurs_eq_true_iff.2 ⟨p, read, occurs⟩] at misses
          cases misses

/-! ## Checking -/

variable {c : Checker} {o : Outcome}

/-- **What a report loses.** The entries of an outcome are those of the violations by the value that
is handed on, in turn, and a violation has none exactly when it is lost. So a value is valid exactly
when all its violations are lost, and, where no schema has patterns that mean something else when
they are joined, exactly when it has no violations. -/
theorem check_pieces (done : c.check v = .ok o) :
    ∃ found pieces, violations c.schema o.value = .ok found ∧ o.errors = pieces.flatten ∧
      List.Forall₂ (fun e piece => piece = [] ↔ e.IsLost) found pieces ∧
      (o.isValid = true ↔ ∀ e ∈ found, e.IsLost) ∧
      ((∀ schema, IsPart (.obj schema) c.schema → JoinsPlainly schema) →
        (o.isValid = true ↔ found = [])) := by
  obtain ⟨-, found, evaluated, reported⟩ := check_eq_ok_iff.1 done
  have origin := violations_from c.schema o.value found evaluated
  obtain ⟨pieces, entries, each⟩ := reportFrom_pieces origin reported
  have valid : o.isValid = true ↔ ∀ e ∈ found, e.IsLost := by
    rw [Outcome.isValid, List.isEmpty_iff, entries, flatten_eq_nil_iff_isLost each]
  refine ⟨found, pieces, evaluated, entries, each, valid, fun plain => ?_⟩
  rw [valid]
  constructor
  · intro lost
    refine List.eq_nil_iff_forall_not_mem.2 fun e mem => ?_
    have part := (origin e mem _ (lost e mem).keyword).part
    exact not_isLost_of_joinsPlainly (plain _ part) (lost e mem)
  · rintro rfl e mem
    cases mem

/-- A schema with the empty pattern, which matches every name. Joined it counts as no pattern. -/
def emptyPatternKeywords : List (String × Json) :=
  [("patternProperties", .obj [("", .obj [])]), ("additionalProperties", .bool false)]

def emptyPatternMembers : List (String × Json) := [("a", .int 1)]

/-- The refusal of the member. -/
def emptyPatternRefusal : Violation :=
  .here emptyPatternKeywords "additionalProperties" (.bool false) (.obj emptyPatternMembers)
    "Additional properties are not allowed"

/-- A member is refused as additional, and the value counts as valid. -/
theorem emptyPattern_pieces :
    (⟨.obj emptyPatternKeywords⟩ : Checker).check (.obj emptyPatternMembers) =
        .ok ⟨.obj emptyPatternMembers, []⟩ ∧
      ∃ e, violations (.obj emptyPatternKeywords) (.obj emptyPatternMembers) = .ok [e] ∧
        e.IsLost := by
  -- The evaluation as a whole does not reduce, but that of each keyword does.
  have found : violations (.obj emptyPatternKeywords) (.obj emptyPatternMembers) =
      .ok [emptyPatternRefusal.under none (some (.key "additionalProperties"))] := by
    have evaluation : violations (.obj emptyPatternKeywords) (.obj emptyPatternMembers) =
        applyAll .draft7 .draft7 ⟨.obj emptyPatternKeywords, ""⟩ 12 false ""
          emptyPatternKeywords (.obj emptyPatternMembers) := rfl
    have patterns (hx) : applyKeyword .draft7 ⟨.obj emptyPatternKeywords, ""⟩ 12 false ""
        emptyPatternKeywords "patternProperties" (.obj [("", .obj [])]) hx
          (.obj emptyPatternMembers) = .ok [] := by
      cbv
    have additional (hx) : applyKeyword .draft7 ⟨.obj emptyPatternKeywords, ""⟩ 12 false ""
        emptyPatternKeywords "additionalProperties" (.bool false) hx
          (.obj emptyPatternMembers) = .ok [emptyPatternRefusal] := by
      cbv
    have active : (Dialect.draft7.countingKeywords emptyPatternKeywords).attach =
        [⟨("patternProperties", .obj [("", .obj [])]), .head _⟩,
          ⟨("additionalProperties", .bool false), .tail _ (.head _)⟩] := rfl
    rw [evaluation, applyAll, active]
    simp only [collect, patterns, additional, Except.map]
    rfl
  have done : (⟨.obj emptyPatternKeywords⟩ : Checker).check (.obj emptyPatternMembers) =
      .ok ⟨.obj emptyPatternMembers, []⟩ := by
    refine check_eq_ok_iff.2 ⟨?_, _, found, ?_⟩
    · cbv
    · cbv
  obtain ⟨others, pieces, evaluated, -, -, valid, -⟩ := check_pieces done
  rw [found] at evaluated
  cases evaluated
  exact ⟨done, _, found, valid.1 rfl _ (List.mem_singleton_self _)⟩

end RouteContract.Schema
