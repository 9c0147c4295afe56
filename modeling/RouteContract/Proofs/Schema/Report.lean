import RouteContract.Proofs.Data.Table
import RouteContract.Proofs.Schema.Coercion
import RouteContract.Proofs.Schema.Origin

/-!
# What a report says

A report has an entry for every violation but one kind: where additional members are refused and
every name is declared or matched by a pattern, there is no name to report (`IsUnreported`). A value
with nothing to report is accepted (`Accepts`). Where no schema has patterns, every violation is
reported, so a value that is accepted has no violations at all (`accepts_iff_of_lacks_patterns`).
-/

set_option autoImplicit false

namespace RouteContract.Schema

open RouteContract Json Pointer

/-! ## Entries -/

/-- A refusal of additional members where no name counts as additional in the report. -/
def Violation.IsUnreported (e : Violation) : Prop :=
  e.keyword = some "additionalProperties" ∧
    ∃ members, e.value = .obj members ∧ additionalNames e.schema members = .ok []

/-- There is no entry about a violation exactly when it is an unreported one. -/
theorem entriesOf_eq_nil_iff {seen later : Seen} {e : Violation} {entries : List Entry}
    (h : entriesOf seen e = .ok (entries, later)) : entries = [] ↔ e.IsUnreported := by
  rw [entriesOf.eq_def] at h
  simp only at h
  split at h
  · next members keyword _ =>
      split at h
      · cases h
      · obtain ⟨missing, -, same⟩ := map_eq_ok_iff.1 h
        cases same
        refine iff_of_false (List.cons_ne_nil _ _) ?_
        rintro ⟨other, -⟩
        rw [keyword] at other
        simp at other
  · next members keyword value =>
      obtain ⟨names, done, same⟩ := map_eq_ok_iff.1 h
      cases same
      rw [List.map_eq_nil_iff]
      constructor
      · rintro rfl
        exact ⟨keyword, members, value, done⟩
      · rintro ⟨-, others, same, none⟩
        rw [value] at same
        cases same
        rw [done] at none
        exact Except.ok.inj none
  · next _ other =>
      obtain ⟨params, -, same⟩ := map_eq_ok_iff.1 h
      cases same
      refine iff_of_false (List.cons_ne_nil _ _) ?_
      rintro ⟨keyword, members, value, -⟩
      exact other members keyword value

/-- A report is empty exactly when all violations are unreported ones. -/
theorem reportFrom_eq_nil_iff {seen : Seen} {found : List Violation} {entries : List Entry}
    (h : reportFrom seen found = .ok entries) : entries = [] ↔ ∀ e ∈ found, e.IsUnreported := by
  induction found generalizing seen entries with
  | nil =>
      cases h
      exact iff_of_true rfl nofun
  | cons e rest ih =>
      rw [reportFrom] at h
      split at h
      · cases h
      · next first later done =>
          obtain ⟨more, rest_done, rfl⟩ := map_eq_ok_iff.1 h
          rw [List.append_eq_nil_iff, entriesOf_eq_nil_iff done, ih rest_done, List.forall_mem_cons]

/-! ## Schemas without patterns -/

theorem mem_keepIf {α : Type} {f : α → Except Fault Bool} {xs kept : List α}
    (h : keepIf f xs = .ok kept) {x : α} (mem : x ∈ kept) : x ∈ xs ∧ f x = .ok true := by
  induction xs generalizing kept with
  | nil =>
      cases h
      cases mem
  | cons y rest ih =>
      rw [keepIf] at h
      split at h
      · cases h
      · next b passes =>
          obtain ⟨more, done, rfl⟩ := map_eq_ok_iff.1 h
          have later (mem : x ∈ more) : x ∈ y :: rest ∧ f x = .ok true :=
            ⟨List.mem_cons_of_mem _ (ih done mem).1, (ih done mem).2⟩
          cases b with
          | false => exact later (by simpa using mem)
          | true =>
              rcases List.mem_cons.1 (by simpa using mem : x ∈ y :: more) with rfl | mem
              · exact ⟨List.mem_cons_self .., passes⟩
              · exact later mem

/-- Where no name is uncovered, each one is covered. -/
theorem isUncovered_of_uncoveredNames {declared : Json} {patterns names : List String}
    (h : uncoveredNames declared patterns names = .ok []) {name : String} (mem : name ∈ names) :
    isUncovered declared patterns name = .ok false := by
  induction names with
  | nil => cases mem
  | cons first rest ih =>
      rw [uncoveredNames] at h
      split at h
      · cases h
      · next b covered =>
          obtain ⟨more, done, same⟩ := map_eq_ok_iff.1 h
          cases b with
          | true => simp at same
          | false =>
              obtain rfl : more = [] := by simpa using same
              rcases List.mem_cons.1 mem with rfl | mem
              · exact covered
              · exact ih done mem

variable {schema : List (String × Json)} {v w : Json}

theorem isUncovered_of_isAdditional {name : String}
    (h : isAdditional ((Table.get? schema "properties").getD (.obj [])) "" name = .ok true) :
    isUncovered (tableUnder schema "properties") [] name = .ok true := by
  have absent (declared : Json) (h : isAdditional declared "" name = .ok true) :
      isUncovered declared [] name = .ok true := by
    rw [isAdditional] at h
    rw [isUncovered]
    cases contained : namesContain declared name with
    | error e =>
        rw [contained] at h
        cases h
    | ok b =>
        cases b with
        | true =>
            rw [contained] at h
            cases h
        | false => rfl
  rw [tableUnder]
  cases stated : Table.get? schema "properties" with
  | none =>
      rw [stated] at h
      exact absent _ h
  | some x =>
      rw [stated] at h
      simp only
      split
      · exact rfl
      · exact absent x h

/-- Without patterns, additional members are reported by name. -/
theorem additionalNames_ne_nil {members : List (String × Json)}
    {extras : List { entry : String × Json // entry ∈ members }}
    (noPatterns : Table.get? schema "patternProperties" = none)
    (found : additionalMembers schema members = .ok extras) (some : extras ≠ []) :
    additionalNames schema members ≠ .ok [] := by
  intro none
  obtain ⟨entry, listed⟩ := List.exists_mem_of_ne_nil extras some
  have joined : joinedPatterns schema = .ok "" := by
    rw [joinedPatterns, noPatterns]
    rfl
  have noTable : tableUnder schema "patternProperties" = .obj [] := by
    rw [tableUnder, noPatterns]
  rw [additionalMembers, joined] at found
  rw [additionalNames, noTable] at none
  have uncovered := isUncovered_of_isAdditional (mem_keepIf found listed).2
  have covered := isUncovered_of_uncoveredNames none (Table.mem_keys_of_mem entry.2)
  rw [Table.keys, List.map_nil, uncovered] at covered
  cases covered

/-! ## Accepted values -/

/-- A value is accepted as it stands when its evaluation finds nothing that is reported. -/
def Accepts (schema v : Json) : Prop :=
  ∃ found, violations schema v = .ok found ∧ ∀ e ∈ found, e.IsUnreported

/-- **Without patterns, a value is accepted exactly when it has no violations.** -/
theorem accepts_iff_of_lacks_patterns {schema : Json} (plain : Lacks "patternProperties" schema) :
    Accepts schema v ↔ violations schema v = .ok [] := by
  constructor
  · rintro ⟨found, done, unreported⟩
    obtain rfl : found = [] := by
      refine List.eq_nil_iff_forall_not_mem.2 fun e mem => ?_
      obtain ⟨keyword, members, value, none⟩ := unreported e mem
      have refusal := violations_from schema v found done e mem _ keyword
      obtain ⟨extras, additional, some⟩ := refusal.additional rfl members value
      exact additionalNames_ne_nil (plain _ refusal.part) additional some none
    exact done
  · intro done
    exact ⟨[], done, nofun⟩

/-! ## Checking -/

variable {c : Checker} {o : Outcome}

theorem check_eq_ok_iff :
    c.check v = .ok o ↔ coerce c.schema v = .ok o.value ∧
      ∃ found, violations c.schema o.value = .ok found ∧ report found = .ok o.errors := by
  obtain ⟨value, errors⟩ := o
  rw [Checker.check]
  constructor
  · intro h
    split at h
    · cases h
    · next w coerced =>
        split at h
        · cases h
        · next found done =>
            obtain ⟨entries, reported, same⟩ := map_eq_ok_iff.1 h
            cases same
            exact ⟨coerced, found, done, reported⟩
  · rintro ⟨coerced, found, done, reported⟩
    simp only [coerced, done, reported]
    rfl

/-- A checker finds a value valid exactly when it accepts the value that it hands on. -/
theorem isValid_iff_accepts (h : c.check v = .ok o) :
    o.isValid = true ↔ Accepts c.schema o.value := by
  obtain ⟨-, found, done, reported⟩ := check_eq_ok_iff.1 h
  rw [Outcome.isValid, List.isEmpty_iff, reportFrom_eq_nil_iff reported, Accepts]
  constructor
  · intro unreported
    exact ⟨found, done, unreported⟩
  · rintro ⟨others, same, unreported⟩
    rw [done] at same
    cases same
    exact unreported

/-- A value that was handed on is handed on again, with the same report. -/
theorem check_again (h : c.check v = .ok o) : c.check o.value = .ok o := by
  obtain ⟨coerced, reported⟩ := check_eq_ok_iff.1 h
  exact check_eq_ok_iff.2 ⟨coerce_coerced coerced, reported⟩

end RouteContract.Schema
