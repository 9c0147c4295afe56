import RouteContract.Proofs.Schema.Choking
import RouteContract.Proofs.Schema.Evaluation
import RouteContract.Proofs.Schema.Loss

/-!
# Names in reports

A report tells missing and additional members one name at a time. All violations by one list of
required names look alike, and which name one of them is about is told by counting those that were
reported before it at the same place. The count is right because no two evaluations share a place:
what a report says of a place is the report of the violations that stand there
(`reportFrom_filter`), and all of them come from the one evaluation that stands there
(`Leads.filter_run`).

So each missing name of an object is reported once, in the order of the list, and each additional
name once, in the order of the object (`check_names`). This is so where no part of the schema names
another dialect. Where keywords count beside a reference, two evaluations do share a place, and the
names of the second one are lost (`parts_nameless`).
-/

set_option autoImplicit false

namespace RouteContract.Schema

open RouteContract Json Pointer

/-! ## Names of coerced values -/

section Coerced

variable {scope : Scope} {base : String} {keywords : List (String × Json)} {v w : Json}

theorem IsSingle.hasDistinctNames (single : IsSingle v) : v.hasDistinctNames = true := by
  cases v with
  | arr items => exact absurd rfl (single.1 items)
  | obj members => exact absurd rfl (single.2 members)
  | null | bool b | int i | float x | str s => rfl

theorem keys_coerceMembers {members coerced : List (String × Json)}
    (done : mapUntilFault (coerceMember scope base keywords) members = .ok coerced) :
    Table.keys coerced = Table.keys members := by
  rw [mapUntilFault_eq_ok_iff] at done
  induction done with
  | nil => rfl
  | cons first _ ih =>
      rw [Table.keys, Table.keys] at ih ⊢
      rw [List.map_cons, List.map_cons, coerceMember_name first, ih]

/-- Coercion of an array or an object keeps names distinct if that of every part does. -/
theorem hasDistinctNames_of_lighter {hops : Nat} (plain : localReference? keywords = none)
    (lighter : ∀ part : Json, part.weight < v.weight → ∀ sub w,
      coerceUnder scope scope.chainLimit base sub part = .ok w → part.hasDistinctNames = true →
        w.hasDistinctNames = true)
    (done : coerceUnder scope hops base (.obj keywords) v = .ok w)
    (distinct : v.hasDistinctNames = true) : w.hasDistinctNames = true := by
  rcases single_or_made_of v with single | ⟨items, rfl⟩ | ⟨members, rfl⟩
  · rw [coerceUnder_single plain single] at done
    exact (coerceType_coerced single done).1.hasDistinctNames
  · rw [coerceUnder_arr plain] at done
    obtain ⟨coerced, each, rfl⟩ := map_eq_ok_iff.1 done
    rw [Json.hasDistinctNames, haveDistinctNames_iff] at distinct ⊢
    intro w mem
    obtain ⟨⟨item, i⟩, listed, same⟩ := exists_of_mem_mapUntilFault each mem
    have inside : item ∈ items := List.fst_mem_of_mem_zipIdx listed
    rw [coerceItem] at same
    split at same
    · cases same
      exact distinct _ inside
    · have le := Json.weight_le_weightItems inside
      exact lighter item (by rw [Json.weight]; omega) _ w same (distinct item inside)
  · rw [coerceUnder_obj plain] at done
    obtain ⟨coerced, each, rfl⟩ := map_eq_ok_iff.1 done
    rw [Json.hasDistinctNames, Bool.and_eq_true, decide_eq_true_eq, membersHaveDistinctNames_iff]
      at distinct ⊢
    refine ⟨keys_coerceMembers each ▸ distinct.1, fun entry mem => ?_⟩
    obtain ⟨member, inside, same⟩ := exists_of_mem_mapUntilFault each mem
    rw [coerceMember] at same
    split at same
    · cases same
    · cases same
      exact distinct.2 _ inside
    · obtain ⟨w, below, rfl⟩ := map_eq_ok_iff.1 same
      have lt := Json.weight_lt_weightMembers inside
      exact lighter member.2 (by rw [Json.weight]; omega) _ w below (distinct.2 _ inside)

theorem hasDistinctNames_of_coerceUnder {hops : Nat} {base : String} {schema v w : Json}
    (done : coerceUnder scope hops base schema v = .ok w) (distinct : v.hasDistinctNames = true) :
    w.hasDistinctNames = true := by
  cases schema with
  | null | bool b | int i | float x | str s | arr items =>
      rw [coerceUnder.eq_def] at done
      cases done
      exact distinct
  | obj keywords =>
      cases reference : localReference? keywords with
      | none =>
          exact hasDistinctNames_of_lighter reference
            (fun part lt sub w done => hasDistinctNames_of_coerceUnder done) done distinct
      | some ref =>
          rw [coerceUnder.eq_def] at done
          simp only [reference] at done
          split at done
          · split at done
            · cases done
              exact distinct
            · cases done
            · exact hasDistinctNames_of_coerceUnder done distinct
          · cases done
          · contradiction
termination_by (v.weight, hops)

/-- **Coercion keeps the names of objects distinct.** -/
theorem hasDistinctNames_of_coerce {schema v w : Json} (done : coerce schema v = .ok w)
    (distinct : v.hasDistinctNames = true) : w.hasDistinctNames = true :=
  hasDistinctNames_of_coerceUnder done distinct

end Coerced

/-! ## Names that are missing -/

section Missing

variable {members : List (String × Json)} {names : List String}

/-- The listed names that an object lacks. -/
def lacking (members : List (String × Json)) (names : List String) : List String :=
  names.filter fun name => !Table.has members name

theorem missingNames_names :
    missingNames members (names.map .str) = .ok ((lacking members names).map .str) := by
  induction names with
  | nil => rfl
  | cons name rest ih =>
      rw [List.map_cons, missingNames, isMissing, lacking]
      cases present : Table.has members name with
      | true =>
          rw [List.filter_cons_of_neg (by simp [present])]
          simp only [Bool.not_true, ih]
          rfl
      | false =>
          rw [List.filter_cons_of_pos (by simp [present])]
          simp only [Bool.not_false, ih]
          rfl

end Missing

/-! ## Names that are additional -/

section Additional

variable {schema members : List (String × Json)} {declared : Json} {patterns : List String}

theorem uncoveredNames_spec {names uncovered : List String}
    (h : uncoveredNames declared patterns names = .ok uncovered) :
    uncovered.Sublist names ∧ ∀ name ∈ names, name ∈ uncovered ↔
      ¬ (namesContain declared name = .ok true ∨
        ∃ source ∈ patterns, patternOccurs source name = .ok true) := by
  induction names generalizing uncovered with
  | nil =>
      cases h
      exact ⟨.slnil, nofun⟩
  | cons first rest ih =>
      rw [uncoveredNames] at h
      split at h
      · cases h
      · next b tested =>
          obtain ⟨more, done, rfl⟩ := map_eq_ok_iff.1 h
          obtain ⟨sub, later⟩ := ih done
          have covered := isUncovered_iff tested
          cases b with
          | true =>
              have kept : ¬ _ := fun h => absurd (covered.2 h) (by decide)
              refine ⟨sub.cons_cons first, List.forall_mem_cons.2 ⟨?_, fun name mem => ?_⟩⟩
              · exact iff_of_true (List.mem_cons_self ..) kept
              · by_cases again : name = first
                · subst again
                  exact iff_of_true (List.mem_cons_self ..) kept
                · rw [if_pos rfl, List.mem_cons, or_iff_right again, later name mem]
          | false =>
              have left := covered.1 rfl
              refine ⟨sub.cons first, List.forall_mem_cons.2 ⟨?_, later⟩⟩
              refine iff_of_false (fun mem => ?_) (not_not_intro left)
              exact (later first (sub.subset mem)).1 mem left

/-- The additional names of an object are those that its schema neither declares nor matches by a
pattern by itself, in their order. -/
theorem additionalNames_spec {names : List String}
    (h : additionalNames schema members = .ok names) :
    names.Sublist (Table.keys members) ∧ ∀ name ∈ Table.keys members,
      name ∈ names ↔ ¬ IsDeclared schema name ∧ ¬ IsMatchedAlone schema name := by
  rw [additionalNames] at h
  split at h
  · next patterns table =>
      obtain ⟨sub, each⟩ := uncoveredNames_spec h
      refine ⟨sub, fun name mem => ?_⟩
      rw [each name mem, not_or]
      simp only [IsDeclared, IsMatchedAlone, table, Json.obj.injEq, exists_eq_left']
  · cases h

end Additional

/-! ## What a report says of a place -/

/-- Whether an entry is about a place in the value and a place in the schema. -/
def Entry.isAt (instancePath schemaPath : String) (entry : Entry) : Bool :=
  decide (entry.instancePath = instancePath) && decide (entry.schemaPath = schemaPath)

/-- How a place in the schema is written. -/
def schemaPointer (steps : List Step) : String := "#" ++ ofSteps steps

section Places

variable {path schemaPath : List Step} {seen seen' later : Seen} {e : Violation}
  {entries : List Entry} {found : List Violation}

theorem ofSteps_eq_iff {steps steps' : List Step} :
    ofSteps steps = ofSteps steps' ↔ steps.map Step.segment = steps'.map Step.segment :=
  ⟨fun same => render_injective same, fun same => congrArg render same⟩

theorem schemaPointer_eq_iff {steps steps' : List Step} :
    schemaPointer steps = schemaPointer steps' ↔
      steps.map Step.segment = steps'.map Step.segment := by
  rw [schemaPointer, schemaPointer, ← String.toList_inj, String.toList_append,
    String.toList_append, List.append_cancel_left_eq, String.toList_inj, ofSteps_eq_iff]

/-- Whether an entry is about the places of a violation. -/
def Entry.IsAbout (e : Violation) (entry : Entry) : Prop :=
  entry.instancePath = ofSteps e.path ∧ entry.schemaPath = schemaPointer e.schemaPath

theorem isAt_of_isAbout {entry : Entry} (about : entry.IsAbout e) :
    entry.isAt (ofSteps path) (schemaPointer schemaPath) = e.isAt path schemaPath := by
  rw [Bool.eq_iff_iff, isAt_iff, Entry.isAt, Bool.and_eq_true, decide_eq_true_eq,
    decide_eq_true_eq, about.1, about.2, ofSteps_eq_iff, schemaPointer_eq_iff]

theorem count_next (seen : Seen) (place other : List Step × List Step) :
    (seen.next place).count other = if place = other then seen.count other + 1 else seen.count other
    := by
  rw [Seen.next, Seen.count, List.find?_cons]
  by_cases same : place = other
  · subst same
    simp
  · rw [if_neg same, show (place == other) = false from by simpa using same]
    rfl

/-- The entry about one of the violations by a list of required names. -/
theorem entriesOf_required {members : List (String × Json)} {names missing : List Json}
    (keyword : e.keyword = some "required") (value : e.value = .obj members)
    (listed : elements e.keywordValue = .ok names) (lacked : missingNames members names = .ok missing)
    (seen : Seen) :
    entriesOf seen e =
      .ok ([missingEntry (ofSteps e.path) (schemaPointer e.schemaPath)
        ((missing[seen.count (e.path, e.schemaPath)]?).getD .null)],
        seen.next (e.path, e.schemaPath)) := by
  simp only [entriesOf, keyword, value, listed, lacked]
  rfl

/-- The entries about a violation are about its places. They depend on earlier ones only where names
are missing, and then only on how many stood there. -/
theorem entriesOf_cases (h : entriesOf seen e = .ok (entries, later)) :
    (∀ entry ∈ entries, entry.IsAbout e) ∧
      ((∀ seen', entriesOf seen' e = .ok (entries, seen')) ∨
        ∃ entry : Nat → Entry, ∀ seen', entriesOf seen' e =
          .ok ([entry (seen'.count (e.path, e.schemaPath))],
            seen'.next (e.path, e.schemaPath))) := by
  have h₁ := h
  rw [entriesOf.eq_def] at h₁
  simp only at h₁
  split at h₁
  · next members keyword value =>
      split at h₁
      · cases h₁
      · next names listed =>
          obtain ⟨missing, lacked, same⟩ := map_eq_ok_iff.1 h₁
          cases same
          refine ⟨List.forall_mem_singleton.2 ⟨rfl, rfl⟩, .inr ⟨fun count => missingEntry
            (ofSteps e.path) (schemaPointer e.schemaPath) ((missing[count]?).getD .null), ?_⟩⟩
          exact entriesOf_required keyword value listed lacked
  · next members keyword value =>
      obtain ⟨names, named, same⟩ := map_eq_ok_iff.1 h₁
      cases same
      refine ⟨List.forall_mem_map.2 fun name _ => ⟨rfl, rfl⟩, .inl fun seen' => ?_⟩
      simp only [entriesOf, keyword, value, named]
      rfl
  · next notRequired notAdditional =>
      obtain ⟨params, known, same⟩ := map_eq_ok_iff.1 h₁
      cases same
      refine ⟨List.forall_mem_singleton.2 ⟨rfl, rfl⟩, .inl fun seen' => ?_⟩
      rw [entriesOf.eq_def]
      simp only [known]
      rfl

/-- Equally many missing names were reported at a place, as pointers write it. -/
def AgreeAt (path schemaPath : List Step) (seen seen' : Seen) : Prop :=
  ∀ place : List Step × List Step, place.1.map Step.segment = path.map Step.segment →
    place.2.map Step.segment = schemaPath.map Step.segment → seen.count place = seen'.count place

/-- A violation at the place has the same entries, and both counts go on alike. -/
theorem AgreeAt.here (agree : AgreeAt path schemaPath seen seen')
    (here : e.isAt path schemaPath = true) (first : entriesOf seen e = .ok (entries, later)) :
    ∃ later', entriesOf seen' e = .ok (entries, later') ∧ AgreeAt path schemaPath later later' := by
  rcases (entriesOf_cases first).2 with same | ⟨entry, counted⟩
  · rw [same] at first
    cases first
    exact ⟨seen', same seen', agree⟩
  · rw [counted] at first
    cases first
    have place := isAt_iff.1 here
    rw [agree (e.path, e.schemaPath) place.1 place.2]
    refine ⟨_, counted seen', fun other samePath sameSchemaPath => ?_⟩
    rw [count_next, count_next, agree other samePath sameSchemaPath]

/-- A violation elsewhere leaves the count of the place as it is. -/
theorem AgreeAt.elsewhere (agree : AgreeAt path schemaPath seen seen')
    (elsewhere : e.isAt path schemaPath = false)
    (first : entriesOf seen e = .ok (entries, later)) : AgreeAt path schemaPath later seen' := by
  rcases (entriesOf_cases first).2 with same | ⟨entry, counted⟩
  · rw [same] at first
    cases first
    exact agree
  · rw [counted] at first
    cases first
    intro other samePath sameSchemaPath
    have differ : (e.path, e.schemaPath) ≠ other := by
      rintro rfl
      rw [isAt_iff.2 ⟨samePath, sameSchemaPath⟩] at elsewhere
      cases elsewhere
    rw [count_next, if_neg differ, agree other samePath sameSchemaPath]

/-- **What a report says of a place is the report of the violations that stand there.** -/
theorem reportFrom_filter (agree : AgreeAt path schemaPath seen seen')
    (done : reportFrom seen found = .ok entries) :
    reportFrom seen' (found.filter (·.isAt path schemaPath)) =
      .ok (entries.filter (·.isAt (ofSteps path) (schemaPointer schemaPath))) := by
  induction found generalizing seen seen' entries with
  | nil =>
      cases done
      rfl
  | cons e rest ih =>
      rw [reportFrom] at done
      split at done
      · cases done
      · next piece later first =>
          obtain ⟨more, later_done, rfl⟩ := map_eq_ok_iff.1 done
          have alike : ∀ entry ∈ piece, entry.isAt (ofSteps path) (schemaPointer schemaPath) =
              e.isAt path schemaPath :=
            fun entry mem => isAt_of_isAbout ((entriesOf_cases first).1 entry mem)
          rw [List.filter_append]
          cases here : e.isAt path schemaPath with
          | true =>
              have all : piece.filter (·.isAt (ofSteps path) (schemaPointer schemaPath)) = piece :=
                List.filter_eq_self.2 fun entry mem => (alike entry mem).trans here
              obtain ⟨later', first', agree'⟩ := agree.here here first
              rw [List.filter_cons_of_pos here, all, reportFrom, first']
              simp only [ih agree' later_done]
              rfl
          | false =>
              have none : piece.filter (·.isAt (ofSteps path) (schemaPointer schemaPath)) = [] :=
                List.filter_eq_nil_iff.2 fun entry mem => by simp [alike entry mem, here]
              rw [List.filter_cons_of_neg (by simp [here]), none, List.nil_append]
              exact ih (agree.elsewhere here first) later_done

/-- What a report says of a place. -/
theorem report_filter (path schemaPath : List Step) (done : report found = .ok entries) :
    report (found.filter (·.isAt path schemaPath)) =
      .ok (entries.filter (·.isAt (ofSteps path) (schemaPointer schemaPath))) :=
  reportFrom_filter (fun _ _ _ => rfl) done

end Places

/-! ## Reports of refusals -/

section Refusals

variable {path schemaPath : List Step} {members : List (String × Json)} {names : List String}
  {schema : List (String × Json)}

/-- The report of violations by one list of required names, of which some were reported before: the
missing names that follow, one for each violation. -/
theorem reportFrom_required {found : List Violation} {seen : Seen}
    (each : ∀ e ∈ found, ∃ message, e = (Violation.here schema "required"
      (.arr (names.map .str)) (.obj members) message).lift path schemaPath)
    (count : seen.count (path, schemaPath) + found.length = (lacking members names).length) :
    reportFrom seen found = .ok
      (((lacking members names).drop (seen.count (path, schemaPath))).map fun name =>
        missingEntry (ofSteps path) (schemaPointer schemaPath) (.str name)) := by
  induction found generalizing seen with
  | nil =>
      rw [List.length_nil, Nat.add_zero] at count
      rw [count, List.drop_length]
      rfl
  | cons e rest ih =>
      obtain ⟨⟨message, rfl⟩, others⟩ := List.forall_mem_cons.1 each
      rw [List.length_cons] at count
      have next : (seen.next (path, schemaPath)).count (path, schemaPath) =
          seen.count (path, schemaPath) + 1 := by rw [count_next, if_pos rfl]
      have inside : seen.count (path, schemaPath) < (lacking members names).length := by omega
      have first := entriesOf_required (e := (Violation.here schema "required"
        (.arr (names.map .str)) (.obj members) message).lift path schemaPath) rfl rfl rfl
        missingNames_names seen
      simp only [Violation.lift, Violation.here, List.append_nil, List.getElem?_map,
        List.getElem?_eq_getElem inside, Option.map_some, Option.getD_some] at first ⊢
      have later := @ih (seen.next (path, schemaPath)) others (by omega)
      rw [reportFrom, first, List.drop_eq_getElem_cons inside]
      simp only [later, next]
      rfl

end Refusals

/-! ## Names in the report of a value -/

variable {c : Checker} {v : Json} {o : Outcome}

/-- **The missing names of an object are reported once each.** At the place of a list of required
names, wherever an object is evaluated against it, the report has one entry for each listed name that
the object lacks, in the order of the list. -/
theorem missing_names (done : c.check v = .ok o) (orderly : IsOrderly c.schema)
    (valueNames : v.hasDistinctNames = true) {path schemaPath : List Step} {inner : Evaluation}
    (evaluates : Evaluates c.schema o.value path schemaPath inner)
    {members : List (String × Json)} (isObject : inner.value = .obj members) {names : List String}
    (active : ("required", .arr (names.map .str)) ∈ activeKeywords inner.schema) :
    o.errors.filter
        (·.isAt (ofSteps path) (schemaPointer (schemaPath ++ [.key "required"]))) =
      (lacking members names).map fun name =>
        missingEntry (ofSteps path) (schemaPointer (schemaPath ++ [.key "required"]))
          (.str name) := by
  obtain ⟨coerced, found, evaluated, reported⟩ := check_eq_ok_iff.1 done
  obtain ⟨keywords, own, same, address, leads⟩ := evaluates
  have distinct := hasDistinctNames_of_coerce coerced valueNames
  rw [same] at evaluated orderly address
  rw [violations_eq_run address] at evaluated
  obtain ⟨refusals, applied, each, stands⟩ := leads.filter_refusals orderly ⟨orderly, distinct⟩
    isObject evaluated active (by decide) (by decide) (applications_eq_nil (by decide))
  have known : Assertion.ofKeyword? "required" = some .required := rfl
  rw [applyKeyword_assertion (meaning?_of_assertion known), isObject,
    Assertion.failures, elements] at applied
  simp only [missingMessages_names] at applied
  cases applied
  have alike : ∀ e ∈ found.filter (·.isAt path (schemaPath ++ [.key "required"])), ∃ message,
      e = (Violation.here inner.schema "required" (.arr (names.map .str)) (.obj members)
        message).lift path (schemaPath ++ [.key "required"]) := by
    rw [stands]
    intro e mem
    obtain ⟨refusal, listed, rfl⟩ := List.mem_map.1 mem
    obtain ⟨message, rfl⟩ := each refusal listed
    exact ⟨message, by rw [isObject]⟩
  have there := report_filter path (schemaPath ++ [.key "required"]) reported
  rw [report, reportFrom_required alike] at there
  · exact (Except.ok.inj there).symm
  · rw [stands, List.length_map, List.length_map, List.length_map]
    exact Nat.zero_add _

/-- Where additional members are refused, they are refused once, all together. -/
theorem length_of_closed {scope : Scope} {hops : Nat} {base : String}
    {schema members : List (String × Json)} {own : List Violation}
    (hx : ("additionalProperties", .bool false) ∈ schema)
    (done : applyKeyword .draft7 scope hops false base schema "additionalProperties" (.bool false) hx
      (.obj members) = .ok own) : own.length ≤ 1 := by
  obtain ⟨extras, kept⟩ := exists_additional done
  rw [applyKeyword_additional kept] at done
  dsimp only at done
  split at done
  · cases done
    exact Nat.le_refl 1
  · cases done
    exact Nat.zero_le 1

/-- A refusal of additional members stands alone at its place. -/
theorem filter_closed {document v : Json} (orderly : IsOrderly document)
    (valueNames : v.hasDistinctNames = true) {found : List Violation}
    (evaluated : violations document v = .ok found) {e : Violation} (mem : e ∈ found)
    (keyword : e.keyword = some "additionalProperties") (closed : e.keywordValue = .bool false)
    {members : List (String × Json)} (value : e.value = .obj members) :
    found.filter (·.isAt e.path e.schemaPath) = [e] := by
  obtain ⟨path, schemaPath, inner, x, message, ⟨keywords, own, root, address, leads⟩, active, same⟩ :=
    exists_evaluates orderly valueNames evaluated mem keyword
  obtain rfl : x = .bool false := by
    rw [same] at closed
    exact closed
  have isObject : inner.value = .obj members := by
    rw [same] at value
    exact value
  have atPath : e.path = path := by
    rw [same]
    exact List.append_nil path
  have atSchemaPath : e.schemaPath = schemaPath ++ [.key "additionalProperties"] := by
    rw [same]
    exact List.append_nil _
  rw [root] at evaluated orderly address
  rw [violations_eq_run address] at evaluated
  obtain ⟨refusals, applied, -, stands⟩ := leads.filter_refusals orderly ⟨orderly, valueNames⟩
    isObject evaluated active (by decide) (by decide) (by rw [isObject]; rfl)
  simp only [isObject] at applied
  rw [← atPath, ← atSchemaPath] at stands
  have listed : e ∈ found.filter (·.isAt e.path e.schemaPath) :=
    List.mem_filter.2 ⟨mem, isAt_iff.2 ⟨rfl, rfl⟩⟩
  have few : (found.filter (·.isAt e.path e.schemaPath)).length ≤ 1 := by
    rw [stands, List.length_map]
    exact length_of_closed _ applied
  obtain ⟨only, one⟩ := List.length_eq_one_iff.1
    (Nat.le_antisymm few (List.length_pos_of_mem listed))
  rw [one, List.mem_singleton] at listed
  rw [one, listed]

/-- **The additional names of an object are reported once each.** At the place of a refusal of
additional members, the report has one entry for each name of the object that is neither declared nor
matched by a pattern by itself, in the order of the object. -/
theorem additional_names (done : c.check v = .ok o) (orderly : IsOrderly c.schema)
    (valueNames : v.hasDistinctNames = true) {found : List Violation} (evaluated : violations c.schema o.value = .ok found) {e : Violation}
    (mem : e ∈ found) (keyword : e.keyword = some "additionalProperties")
    (closed : e.keywordValue = .bool false) {members : List (String × Json)}
    (value : e.value = .obj members) :
    ∃ names : List String, names.Sublist (Table.keys members) ∧
      (∀ name ∈ Table.keys members,
        name ∈ names ↔ ¬ IsDeclared e.schema name ∧ ¬ IsMatchedAlone e.schema name) ∧
      o.errors.filter (·.isAt (ofSteps e.path) (schemaPointer e.schemaPath)) =
        names.map (additionalEntry (ofSteps e.path) (schemaPointer e.schemaPath)) := by
  obtain ⟨coerced, others, same, reported⟩ := check_eq_ok_iff.1 done
  rw [evaluated] at same
  cases same
  have alone := filter_closed orderly (hasDistinctNames_of_coerce coerced valueNames) evaluated
    mem keyword closed value
  have there := report_filter e.path e.schemaPath reported
  rw [alone, report, reportFrom] at there
  simp only [entriesOf, keyword, value] at there
  cases named : additionalNames e.schema members with
  | error fault =>
      rw [named] at there
      cases there
  | ok names =>
      rw [named] at there
      obtain ⟨sub, each⟩ := additionalNames_spec named
      refine ⟨names, sub, each, (Except.ok.inj there).symm.trans ?_⟩
      exact List.append_nil _

/-- **Names are reported once each.** Wherever an object is evaluated against a list of required
names, the report has at that place one entry for each listed name that the object lacks, in the
order of the list; and at the place of a refusal of additional members one entry for each name that
is neither declared nor matched by a pattern by itself, in the order of the object. No refusal comes
from elsewhere than from such evaluations. -/
theorem check_names (done : c.check v = .ok o) (schemaNames : c.schema.hasDistinctNames = true)
    (valueNames : v.hasDistinctNames = true) (keeps : KeepsDialect c.schema) :
    (∀ path schemaPath inner members (names : List String),
      Evaluates c.schema o.value path schemaPath inner → inner.value = .obj members →
      ("required", .arr (names.map .str)) ∈ activeKeywords inner.schema →
      o.errors.filter
          (·.isAt (ofSteps path) (schemaPointer (schemaPath ++ [.key "required"]))) =
        (names.filter fun name => !Table.has members name).map fun name =>
          missingEntry (ofSteps path) (schemaPointer (schemaPath ++ [.key "required"]))
            (.str name)) ∧
    ∃ found, violations c.schema o.value = .ok found ∧
      (∀ e ∈ found, ∀ keyword, e.keyword = some keyword →
        ∃ path schemaPath inner x message, Evaluates c.schema o.value path schemaPath inner ∧
          (keyword, x) ∈ activeKeywords inner.schema ∧
          e = (Violation.here inner.schema keyword x inner.value message).lift path
            (schemaPath ++ keywordSteps keyword)) ∧
      ∀ e ∈ found, ∀ members, e.keyword = some "additionalProperties" →
        e.keywordValue = .bool false → e.value = .obj members →
        ∃ names : List String, names.Sublist (Table.keys members) ∧
          (∀ name ∈ Table.keys members,
            name ∈ names ↔ ¬ IsDeclared e.schema name ∧ ¬ IsMatchedAlone e.schema name) ∧
          o.errors.filter (·.isAt (ofSteps e.path) (schemaPointer e.schemaPath)) =
            names.map (additionalEntry (ofSteps e.path) (schemaPointer e.schemaPath)) := by
  obtain ⟨coerced, found, evaluated, -⟩ := check_eq_ok_iff.1 done
  have distinct := hasDistinctNames_of_coerce coerced valueNames
  have orderly : IsOrderly c.schema := ⟨schemaNames, keeps⟩
  refine ⟨fun path schemaPath inner members names evaluates isObject active =>
    missing_names done orderly valueNames evaluates isObject active, found, evaluated, ?_, ?_⟩
  · exact fun e mem keyword refusing => exists_evaluates orderly distinct evaluated mem refusing
  · exact fun e mem members keyword closed value =>
      additional_names done orderly valueNames evaluated mem keyword closed value

/-- What parcels are required to have beside an address to start from. -/
def parcelPart : List (String × Json) := [("required", .arr [.str "to", .str "weight"])]

/-- A schema for parcels that requires the same name at two places. -/
def parcelKeywords : List (String × Json) :=
  [("required", .arr [.str "from", .str "to"]), ("allOf", .arr [.obj parcelPart]),
    ("additionalProperties", .bool false)]

def parcelMembers : List (String × Json) := [("weight", .int 2)]

/-- The refusals of a parcel without addresses. -/
def parcelRefusals : List Violation :=
  [⟨some "required", .arr [.str "from", .str "to"], "'from' is a required property",
      .obj parcelMembers, parcelKeywords, [], [.key "required"]⟩,
    ⟨some "required", .arr [.str "from", .str "to"], "'to' is a required property",
      .obj parcelMembers, parcelKeywords, [], [.key "required"]⟩,
    ⟨some "required", .arr [.str "to", .str "weight"], "'to' is a required property",
      .obj parcelMembers, parcelPart, [], [.key "allOf", .index 0, .key "required"]⟩,
    ⟨some "additionalProperties", .bool false, "Additional properties are not allowed",
      .obj parcelMembers, parcelKeywords, [], [.key "additionalProperties"]⟩]

/-- The entries about them. -/
def parcelEntries : List Entry :=
  [missingEntry "" "#/required" (.str "from"), missingEntry "" "#/required" (.str "to"),
    missingEntry "" "#/allOf/0/required" (.str "to"),
    additionalEntry "" "#/additionalProperties" "weight"]

theorem parcel_violations :
    violations (.obj parcelKeywords) (.obj parcelMembers) = .ok parcelRefusals := by
  have evaluation : violations (.obj parcelKeywords) (.obj parcelMembers) =
      applyAll .draft7 .draft7 ⟨.obj parcelKeywords, ""⟩ 12 false "" parcelKeywords
        (.obj parcelMembers) := rfl
  -- The evaluation as a whole does not reduce, but that of each keyword does.
  have required (hx) : applyKeyword .draft7 ⟨.obj parcelKeywords, ""⟩ 12 false "" parcelKeywords
      "required" (.arr [.str "from", .str "to"]) hx (.obj parcelMembers) =
        .ok [.here parcelKeywords "required" (.arr [.str "from", .str "to"]) (.obj parcelMembers)
            "'from' is a required property",
          .here parcelKeywords "required" (.arr [.str "from", .str "to"]) (.obj parcelMembers)
            "'to' is a required property"] := by
    cbv
  have allOf (hx) : applyKeyword .draft7 ⟨.obj parcelKeywords, ""⟩ 12 false "" parcelKeywords "allOf"
      (.arr [.obj parcelPart]) hx (.obj parcelMembers) =
        .ok [(Violation.here parcelPart "required" (.arr [.str "to", .str "weight"])
          (.obj parcelMembers) "'to' is a required property").lift []
            [.index 0, .key "required"]] := by
    cbv
  have additional (hx) : applyKeyword .draft7 ⟨.obj parcelKeywords, ""⟩ 12 false "" parcelKeywords
      "additionalProperties" (.bool false) hx (.obj parcelMembers) =
        .ok [.here parcelKeywords "additionalProperties" (.bool false) (.obj parcelMembers)
          "Additional properties are not allowed"] := by
    cbv
  have active : (Dialect.draft7.countingKeywords parcelKeywords).attach =
      [⟨("required", .arr [.str "from", .str "to"]), .head _⟩,
        ⟨("allOf", .arr [.obj parcelPart]), .tail _ (.head _)⟩,
        ⟨("additionalProperties", .bool false), .tail _ (.tail _ (.head _))⟩] := rfl
  rw [evaluation, applyAll, active]
  simp only [collect, required, allOf, additional, Except.map]
  rfl

/-- A part of the schema requires a name that the whole schema requires too; each of the two places
has its own entry. -/
theorem parcel_names :
    (⟨.obj parcelKeywords⟩ : Checker).check (.obj parcelMembers) =
        .ok ⟨.obj parcelMembers, parcelEntries⟩ ∧
      Evaluates (.obj parcelKeywords) (.obj parcelMembers) [] [.key "allOf", .index 0]
        ⟨12, "", parcelPart, .obj parcelMembers⟩ ∧
      parcelEntries.filter (·.isAt "" "#/allOf/0/required") =
        [missingEntry "" "#/allOf/0/required" (.str "to")] ∧
      ∃ names : List String, names.Sublist ["weight"] ∧ "weight" ∈ names ∧
        parcelEntries.filter (·.isAt "" "#/additionalProperties") =
          names.map (additionalEntry "" "#/additionalProperties") := by
  have done : (⟨.obj parcelKeywords⟩ : Checker).check (.obj parcelMembers) =
      .ok ⟨.obj parcelMembers, parcelEntries⟩ := by
    refine check_eq_ok_iff.2 ⟨?_, parcelRefusals, parcel_violations, ?_⟩
    · cbv
    · cbv
  have evaluates : Evaluates (.obj parcelKeywords) (.obj parcelMembers) [] [.key "allOf", .index 0]
      ⟨12, "", parcelPart, .obj parcelMembers⟩ :=
    ⟨parcelKeywords, none, rfl, rfl,
      @Leads.applied _ (wholeEvaluation parcelKeywords none (.obj parcelMembers)) _ "allOf" ""
        (.arr [.obj parcelPart]) ⟨none, some (.index 0), 12, .obj parcelPart, .obj parcelMembers⟩
        parcelPart [] [] (.tail _ (.head _)) (.head _) rfl rfl (.here _)⟩
  obtain ⟨missing, found, evaluated, -, additional⟩ :=
    check_names done (by decide) (by decide) (by decide)
  obtain rfl : parcelRefusals = found := Except.ok.inj (parcel_violations.symm.trans evaluated)
  refine ⟨done, evaluates, ?_, ?_⟩
  · exact missing _ _ _ _ ["to", "weight"] evaluates rfl (.head _)
  · obtain ⟨names, sub, each, entries⟩ :=
      additional _ (.tail _ (.tail _ (.tail _ (.head _)))) _ rfl rfl rfl
    refine ⟨names, sub, (each "weight" (.head _)).2 ⟨?_, ?_⟩, entries⟩
    · rintro ⟨⟩
    · rintro ⟨patterns, table, source, listed, -⟩
      cases table
      cases listed

/-- A schema for parts of parts, in a dialect in which a reference does not hide the keywords beside
it. -/
def partsSchema : Json :=
  .obj [("$schema", .str "https://json-schema.org/draft/2020-12/schema"),
    ("properties", .obj [("part", .obj [("$ref", .str "#"), ("required", .arr [.str "size"])])]),
    ("required", .arr [.str "name"])]

/-- A part of a part without a name and without a size. -/
def partsValue : Json :=
  .obj [("name", .str "a"), ("part", .obj [("name", .str "b"), ("part", .obj [])])]

/-- Two lists of required names are evaluated at one place, and the second entry has no name. -/
theorem parts_nameless :
    partsSchema.hasDistinctNames = true ∧ partsValue.hasDistinctNames = true ∧
      ((⟨partsSchema⟩ : Checker).check partsValue).map
          (fun o => o.errors.map fun e => (e.instancePath, e.schemaPath, e.keyword, e.params)) =
        .ok [("/part/part", "#/properties/part/properties/part/required", "required",
              [("missingProperty", .str "name")]),
            ("/part/part", "#/properties/part/properties/part/required", "required",
              [("missingProperty", .null)])] := by
  refine ⟨by decide, by decide, ?_⟩
  cbv

end RouteContract.Schema
