import RouteContract.Proofs.Json.RoundTrip
import RouteContract.Proofs.Schema.Application
import RouteContract.Schema.Checker

/-!
# Evaluations and their places

An evaluation of a value leads to further ones: of the schema that a reference names, and of the
subschemas that keywords apply and whose violations they pass on (`Leads`). Each step of the way adds
what it leaves in the path of the value and in that of the schema; a reference leaves nothing, and
neither does a condition beside the branch that it selects.

Every violation is found by such an evaluation, at its place (`exists_leads`). And the places tell
evaluations apart: what the whole finds at the place of a keyword is what the one evaluation that
stands there finds by it, and nothing else (`Leads.filter_run`). In schemas and values whose names
are distinct no two evaluations of an object share a place, although the steps of references are not
written down. That is so because a reference hides the keywords beside it, and so only where no part
of the schema names another dialect (`IsOrderly`).
-/

set_option autoImplicit false

namespace RouteContract.Schema

open RouteContract Json Pointer

/-! ## Distinct names -/

/-- What has distinct names has parts with distinct names. -/
theorem hasDistinctNames_of_isPart {part whole : Json} (below : IsPart part whole)
    (distinct : whole.hasDistinctNames = true) : part.hasDistinctNames = true := by
  induction below with
  | self => exact distinct
  | item listed _ ih =>
      rw [hasDistinctNames, haveDistinctNames_iff] at distinct
      exact ih (distinct _ listed)
  | member listed _ ih =>
      rw [hasDistinctNames, Bool.and_eq_true, membersHaveDistinctNames_iff] at distinct
      exact ih (distinct.2 _ listed)

theorem nodup_keys_of_hasDistinctNames {members : List (String × Json)}
    (distinct : (Json.obj members).hasDistinctNames = true) : (Table.keys members).Nodup := by
  rw [hasDistinctNames, Bool.and_eq_true, decide_eq_true_eq] at distinct
  exact distinct.1

/-- The names in a schema are distinct, and no part of it names another dialect. -/
structure IsOrderly (schema : Json) : Prop where
  names : schema.hasDistinctNames = true
  dialect : KeepsDialect schema

theorem IsOrderly.of_isPart {schema part : Json} (orderly : IsOrderly schema)
    (below : IsPart part schema) : IsOrderly part :=
  ⟨hasDistinctNames_of_isPart below orderly.names, orderly.dialect.of_isPart below⟩

/-! ## Evaluations -/

/-- The evaluation of a value against the keywords of a schema, seen from a base address, with the
references that may still be followed. -/
structure Evaluation where
  hops : Nat
  base : String
  schema : List (String × Json)
  value : Json

/-- What an evaluation finds. -/
def Evaluation.run (scope : Scope) (e : Evaluation) : Except Fault (List Violation) :=
  applyAll .draft7 .draft7 scope e.hops false e.base e.schema e.value

/-- The schema is orderly, and the names in the value are distinct. -/
structure Evaluation.IsDistinct (e : Evaluation) : Prop where
  schema : IsOrderly (.obj e.schema)
  value : e.value.hasDistinctNames = true

/-- The step that a keyword leaves in the path of a schema. -/
def keywordSteps (keyword : String) : List Step := if leavesNoStep keyword then [] else [.key keyword]

/-- An evaluation leads to another one, by steps in the value and steps in the schema, and passes on
what that one finds. -/
inductive Leads (scope : Scope) : Evaluation → List Step → List Step → Evaluation → Prop where
  | here (e : Evaluation) : Leads scope e [] [] e
  | reference {outer inner : Evaluation} {hops : Nat} {inside ref : String}
      {target : List (String × Json)} {path schemaPath : List Step}
      (stated : Table.get? outer.schema "$ref" = some (.str ref)) (more : outer.hops = hops + 1)
      (led : scope.lookup outer.base ref = .ok (.obj target, inside))
      (below : Leads scope ⟨hops, inside, target, outer.value⟩ path schemaPath inner) :
      Leads scope outer path schemaPath inner
  | applied {outer inner : Evaluation} {keyword inside : String} {x : Json} {a : Application}
      {sub : List (String × Json)} {path schemaPath : List Step}
      (active : (keyword, x) ∈ activeKeywords outer.schema)
      (listed : a ∈ applications scope outer.hops outer.base outer.schema keyword x outer.value)
      (isTable : a.schema = .obj sub) (opened : baseInside outer.base (.obj sub) = .ok inside)
      (below : Leads scope ⟨a.hops, inside, sub, a.value⟩ path schemaPath inner) :
      Leads scope outer (a.step.toList ++ path)
        (keywordSteps keyword ++ a.schemaStep.toList ++ schemaPath) inner

/-- A violation seen from further outside. -/
def Violation.lift (path schemaPath : List Step) (e : Violation) : Violation :=
  { e with path := path ++ e.path, schemaPath := schemaPath ++ e.schemaPath }

/-- Whether a violation stands at a place, as pointers write it. -/
def Violation.isAt (path schemaPath : List Step) (e : Violation) : Bool :=
  decide (e.path.map Step.segment = path.map Step.segment) &&
    decide (e.schemaPath.map Step.segment = schemaPath.map Step.segment)

variable {scope : Scope} {outer inner : Evaluation} {path schemaPath : List Step}
  {found : List Violation}

/-! ## Keywords at work -/

/-- What an active keyword finds, as the schema passes it on. -/
def keywordFind (scope : Scope) (e : Evaluation)
    (entry : { entry // entry ∈ activeKeywords e.schema }) : Except Fault (List Violation) :=
  (applyKeyword .draft7 scope e.hops false e.base e.schema entry.1.1 entry.1.2
    (mem_of_mem_activeKeywords entry.2) e.value).map (·.map (·.lift [] (keywordSteps entry.1.1)))

theorem run_eq_collect (e : Evaluation) :
    e.run scope = collect false (keywordFind scope e) (activeKeywords e.schema).attach := by
  have each (entry : { entry // entry ∈ activeKeywords e.schema }) :
      keywordFind scope e entry =
        (applyKeyword .draft7 scope e.hops false e.base e.schema entry.1.1 entry.1.2
          (mem_of_mem_activeKeywords entry.2) e.value).map fun found =>
            if leavesNoStep entry.1.1 then found
            else found.map (·.under none (some (.key entry.1.1))) := by
    rw [keywordFind]
    congr 1
    funext found
    rw [keywordSteps]
    split
    · exact List.map_id found
    · rfl
  rw [Evaluation.run, applyAll, funext each]
  rfl

/-- An evaluation finds what its keywords find, in their order. -/
theorem composed_of_run (done : outer.run scope = .ok found) :
    Composed (keywordFind scope outer) (fun _ => False) (activeKeywords outer.schema).attach
      found :=
  .collect ((run_eq_collect outer).symm.trans done)

theorem keywordFind_eq_ok_iff {entry : { entry // entry ∈ activeKeywords outer.schema }} :
    keywordFind scope outer entry = .ok found ↔
      ∃ own, applyKeyword .draft7 scope outer.hops false outer.base outer.schema entry.1.1 entry.1.2
          (mem_of_mem_activeKeywords entry.2) outer.value = .ok own ∧
        own.map (·.lift [] (keywordSteps entry.1.1)) = found :=
  map_eq_ok_iff

/-! ## References -/

theorem activeKeywords_of_reference {schema : List (String × Json)} {ref : String}
    (stated : Table.get? schema "$ref" = some (.str ref)) :
    activeKeywords schema = [("$ref", .str ref)] := by
  rw [activeKeywords, stated]

/-- What a schema with a reference finds is what the schema finds to which the reference leads. -/
theorem run_of_reference {hops : Nat} {inside ref : String} {target : List (String × Json)}
    (stated : Table.get? outer.schema "$ref" = some (.str ref)) (more : outer.hops = hops + 1)
    (led : scope.lookup outer.base ref = .ok (.obj target, inside))
    (keeps : KeepsDialect (.obj target)) (done : outer.run scope = .ok found) :
    (Evaluation.mk hops inside target outer.value).run scope = .ok found := by
  obtain ⟨_, base, schema, v⟩ := outer
  obtain rfl := more
  have meaning : Dialect.draft7.meaning? schema "$ref" = some .reference := rfl
  have find (entry : { entry // entry ∈ activeKeywords schema }) :
      keywordFind scope ⟨hops + 1, base, schema, v⟩ entry =
        follow .draft7 scope (hops + 1) false base ref v := by
    obtain ⟨entry, active⟩ := entry
    have same := active
    rw [activeKeywords_of_reference stated] at same
    obtain rfl := List.mem_singleton.1 same
    rw [keywordFind, applyKeyword_reference meaning]
    cases follow .draft7 scope (hops + 1) false base ref v with
    | error e => rfl
    | ok found => exact congrArg Except.ok (List.map_id found)
  have single : (activeKeywords schema).attach.length = 1 := by
    rw [List.length_attach, activeKeywords_of_reference stated]
    rfl
  obtain ⟨entry, only⟩ := List.length_eq_one_iff.1 single
  rw [run_eq_collect, only, collect_cons, find] at done
  obtain ⟨found, followed, rest⟩ := bind_eq_ok_iff.1 done
  obtain ⟨later, nothing, rfl⟩ := map_eq_ok_iff.1 rest
  cases nothing
  rw [List.append_nil]
  rw [follow, led] at followed
  dsimp only at followed
  split at followed
  · cases followed
  · next own named =>
      obtain rfl := keeps target (.self _) own named
      exact followed

/-- A reference that an evaluation follows hides all other keywords. -/
theorem reference_of_active (distinct : outer.IsDistinct) {x : Json}
    (active : ("$ref", x) ∈ activeKeywords outer.schema)
    {found : List Violation} (done : keywordFind scope outer ⟨_, active⟩ = .ok found) :
    ∃ ref, Table.get? outer.schema "$ref" = some (.str ref) ∧ x = .str ref := by
  have stated := Table.get?_eq_some_of_mem (nodup_keys_of_hasDistinctNames distinct.schema.names)
    (mem_of_mem_activeKeywords active)
  obtain ⟨own, run, -⟩ := keywordFind_eq_ok_iff.1 done
  have meaning : Dialect.draft7.meaning? outer.schema "$ref" = some .reference := rfl
  by_cases isText : ∃ ref, x = .str ref
  · obtain ⟨ref, rfl⟩ := isText
    exact ⟨ref, stated, rfl⟩
  · rw [applyKeyword_reference_other meaning _ fun ref same => isText ⟨ref, same⟩] at run
    cases run

/-! ## The first step -/

/-- Keywords that find nothing by themselves: the branches of a condition, and what leaves no step
in other dialects only. -/
def silentKeywords : List String := ["then", "else", "$dynamicRef"]

/-- The keywords that the path in a schema may begin with behind a keyword. -/
def firstSteps (keyword : String) : List String :=
  if keyword = "if" then ["then", "else"]
  else if keyword ∈ silentKeywords then []
  else [keyword]

theorem eq_of_mem_firstSteps {keyword other step : String} (first : step ∈ firstSteps keyword)
    (second : step ∈ firstSteps other) : keyword = other := by
  grind [firstSteps, silentKeywords]

theorem keywordSteps_eq {keyword : String} (noReference : keyword ≠ "$ref")
    (noCondition : keyword ≠ "if") (speaks : keyword ∉ silentKeywords) :
    keywordSteps keyword = [.key keyword] := by
  have static : keyword ≠ "$dynamicRef" := by
    rintro rfl
    exact speaks (by decide)
  simp [keywordSteps, leavesNoStep, noReference, noCondition, static]

section FirstStep

variable {hops : Nat} {base keyword : String} {schema : List (String × Json)} {x v : Json}

theorem eq_nil_of_silent (silent : keyword ∈ silentKeywords) (hx : (keyword, x) ∈ schema)
    (done : applyKeyword .draft7 scope hops false base schema keyword x hx v = .ok found) :
    found = [] := by
  have unknown : Dialect.draft7.meaning? schema keyword = none := by
    simp only [silentKeywords, List.mem_cons, List.not_mem_nil, or_false] at silent
    rcases silent with rfl | rfl | rfl
    · exact meaning?_eq_none rfl (by decide) (by decide)
    · exact meaning?_eq_none rfl (by decide) (by decide)
    · exact meaning?_eq_none rfl (by decide) (by decide)
  exact Except.ok.inj (done.symm.trans (applyKeyword_unknown unknown hx))

/-- The schemas of applications keep the dialect that the schema keeps. -/
theorem keeps_of_mem_applications (keeps : KeepsDialect (.obj schema)) (hx : (keyword, x) ∈ schema)
    {a : Application} (applied : a ∈ applications scope hops base schema keyword x v) :
    ∀ sub, a.schema = .obj sub → ∀ d, Dialect.draft7.inside (.obj sub) = .ok d → d = .draft7 :=
  fun sub same => keeps sub (same ▸ (isBelow_of_mem_applications hx a applied).stands)

/-- What a keyword finds begins with one of its steps, or is the refusal by the schema that refuses
everything. -/
theorem firstStep_of_mem (keeps : KeepsDialect (.obj schema)) (noReference : keyword ≠ "$ref")
    (hx : (keyword, x) ∈ schema)
    (done : applyKeyword .draft7 scope hops false base schema keyword x hx v = .ok found)
    {e : Violation} (mem : e ∈ found) :
    keywordSteps keyword ++ e.schemaPath = [] ∨
      ∃ step rest, keywordSteps keyword ++ e.schemaPath = .key step :: rest ∧
        step ∈ firstSteps keyword := by
  by_cases condition : keyword = "if"
  · subst condition
    rcases (composed_of_applyKeyword noReference hx done).cases_of_mem mem with
      ⟨message, rfl⟩ | ⟨a, applied, below, done, mem⟩
    · exact .inl rfl
    · rcases cases_of_mem_find (keeps_of_mem_applications keeps hx applied) done mem with
        ⟨-, -, refused⟩ | ⟨-, -, -, -, -, -, inner, -, rfl⟩
      · exact .inl refused
      · refine .inr ?_
        rcases branch_of_mem_applications applied with branch | branch
        · exact ⟨"then", inner.schemaPath, by simp [Violation.under, branch, keywordSteps,
            leavesNoStep], by simp [firstSteps]⟩
        · exact ⟨"else", inner.schemaPath, by simp [Violation.under, branch, keywordSteps,
            leavesNoStep], by simp [firstSteps]⟩
  · by_cases silent : keyword ∈ silentKeywords
    · rw [eq_nil_of_silent silent hx done] at mem
      cases mem
    · refine .inr ⟨keyword, e.schemaPath, ?_, ?_⟩
      · rw [keywordSteps_eq noReference condition silent]
        rfl
      · rw [firstSteps, if_neg condition, if_neg silent]
        exact List.mem_singleton_self _

/-- The steps of an application begin with a step of its keyword. -/
theorem exists_firstStep {a : Application}
    (applied : a ∈ applications scope hops base schema keyword x v) (below : List Step) :
    ∃ step rest, keywordSteps keyword ++ (a.schemaStep.toList ++ below) = .key step :: rest ∧
      step ∈ firstSteps keyword := by
  have applicator : keyword ∈ applicators := by
    by_contra none
    rw [applications_eq_nil none] at applied
    cases applied
  by_cases condition : keyword = "if"
  · subst condition
    rcases branch_of_mem_applications applied with branch | branch
    · exact ⟨"then", below, by rw [branch]; rfl, by simp [firstSteps]⟩
    · exact ⟨"else", below, by rw [branch]; rfl, by simp [firstSteps]⟩
  · have noReference : keyword ≠ "$ref" := by
      rintro rfl
      revert applicator
      decide
    have speaks : keyword ∉ silentKeywords := by
      have disjoint : ∀ silent ∈ silentKeywords, silent ∉ applicators := by decide
      exact fun silent => disjoint keyword silent applicator
    refine ⟨keyword, a.schemaStep.toList ++ below, ?_, ?_⟩
    · rw [keywordSteps_eq noReference condition speaks]
      rfl
    · rw [firstSteps, if_neg condition, if_neg speaks]
      exact List.mem_singleton_self _

end FirstStep

/-! ## Places -/

theorem isAt_iff {e : Violation} :
    e.isAt path schemaPath = true ↔ e.path.map Step.segment = path.map Step.segment ∧
      e.schemaPath.map Step.segment = schemaPath.map Step.segment := by
  rw [Violation.isAt, Bool.and_eq_true, decide_eq_true_eq, decide_eq_true_eq]

/-- Seen from further outside, a violation stands at a place exactly when it stands at the rest of
it. -/
theorem isAt_lift (first schemaFirst : List Step) (e : Violation) :
    (e.lift first schemaFirst).isAt (first ++ path) (schemaFirst ++ schemaPath) =
      e.isAt path schemaPath := by
  rw [Bool.eq_iff_iff, isAt_iff, isAt_iff, Violation.lift]
  simp only [List.map_append, List.append_cancel_left_eq]

theorem filter_map_lift (first schemaFirst : List Step) (found : List Violation) :
    (found.map (·.lift first schemaFirst)).filter
        (·.isAt (first ++ path) (schemaFirst ++ schemaPath)) =
      (found.filter (·.isAt path schemaPath)).map (·.lift first schemaFirst) := by
  rw [List.filter_map]
  congr 2
  funext e
  exact isAt_lift first schemaFirst e

theorem lift_lift (first schemaFirst second schemaSecond : List Step) (e : Violation) :
    (e.lift second schemaSecond).lift first schemaFirst =
      e.lift (first ++ second) (schemaFirst ++ schemaSecond) := by
  simp only [Violation.lift, List.append_assoc]

theorem nodup_keys_activeKeywords (distinct : outer.IsDistinct) :
    (Table.keys (activeKeywords outer.schema)).Nodup := by
  rw [activeKeywords.eq_def]
  split
  · exact nodup_keys_of_hasDistinctNames distinct.schema.names
  · exact nodup_keys_of_hasDistinctNames distinct.schema.names
  · exact List.nodup_singleton _

/-- A violation that begins with a step of a keyword stands at no place that begins with a step of
another one. -/
theorem isAt_eq_false_of_firstStep {keyword other step : String} {rest : List Step} {e : Violation}
    (differ : other ≠ keyword) (first : step ∈ firstSteps keyword)
    (begins : schemaPath = .key step :: rest)
    (found : e.schemaPath = [] ∨
      ∃ step rest, e.schemaPath = .key step :: rest ∧ step ∈ firstSteps other) :
    e.isAt path schemaPath = false := by
  rw [← Bool.not_eq_true, isAt_iff, begins]
  rintro ⟨-, same⟩
  rcases found with empty | ⟨step', rest', starts, second⟩
  · rw [empty] at same
    cases same
  · rw [starts, List.map_cons, List.map_cons, List.cons.injEq] at same
    obtain rfl : step' = step := same.1
    exact differ (eq_of_mem_firstSteps second first)

/-- What other keywords find stands elsewhere. -/
theorem filter_keyword (path : List Step) (distinct : outer.IsDistinct)
    {keyword : String} {x : Json} (active : (keyword, x) ∈ activeKeywords outer.schema)
    (noReference : keyword ≠ "$ref") {step : String} {rest : List Step}
    (first : step ∈ firstSteps keyword) (begins : schemaPath = .key step :: rest)
    (done : outer.run scope = .ok found) :
    ∃ own, applyKeyword .draft7 scope outer.hops false outer.base outer.schema keyword x
        (mem_of_mem_activeKeywords active) outer.value = .ok own ∧
      found.filter (·.isAt path schemaPath) =
        (own.map (·.lift [] (keywordSteps keyword))).filter (·.isAt path schemaPath) := by
  have names : ((activeKeywords outer.schema).attach.map fun entry => entry.1.1).Nodup := by
    have keys := nodup_keys_activeKeywords distinct
    rwa [Table.keys, ← List.attach_map_subtype_val (activeKeywords outer.schema), List.map_map]
      at keys
  have othersFail : ∀ entry ∈ (activeKeywords outer.schema).attach, entry.1.1 ≠ keyword →
      ∀ below, keywordFind scope outer entry = .ok below →
        below.filter (·.isAt path schemaPath) = [] := by
    rintro ⟨⟨other, y⟩, listed⟩ - differ below run
    have otherReference : other ≠ "$ref" := by
      rintro rfl
      obtain ⟨ref, stated, -⟩ := reference_of_active distinct listed run
      rw [activeKeywords_of_reference stated] at active
      exact noReference (Prod.mk.inj (List.mem_singleton.1 active)).1
    obtain ⟨own, found, rfl⟩ := keywordFind_eq_ok_iff.1 run
    refine List.filter_eq_nil_iff.2 fun _ lifted => ?_
    obtain ⟨e, mem, rfl⟩ := List.mem_map.1 lifted
    rw [Bool.not_eq_true]
    exact isAt_eq_false_of_firstStep differ first begins
      (firstStep_of_mem distinct.schema.dialect otherReference _ found mem)
  obtain ⟨below, run, same⟩ := (composed_of_run done).filter_eq (fun entry => entry.1.1)
    (fun _ => False.elim) names (List.mem_attach _ ⟨(keyword, x), active⟩) othersFail
  obtain ⟨own, found, rfl⟩ := keywordFind_eq_ok_iff.1 run
  exact ⟨own, found, same⟩

/-- What other applications of a keyword find stands elsewhere. -/
theorem filter_application (path : List Step) (distinct : outer.IsDistinct) {keyword : String}
    {x : Json}
    (hx : (keyword, x) ∈ outer.schema) {a : Application} {sub : List (String × Json)}
    {inside : String}
    (applied : a ∈ applications scope outer.hops outer.base outer.schema keyword x outer.value)
    (isTable : a.schema = .obj sub) (opened : baseInside outer.base (.obj sub) = .ok inside)
    (noName : ∀ name, a.value ≠ .str name) (below : schemaPath ≠ [])
    (composed : ComposedBy scope outer.hops outer.base outer.schema keyword x outer.value found) :
    ∃ own, (Evaluation.mk a.hops inside sub a.value).run scope = .ok own ∧
      found.filter (·.isAt (a.step.toList ++ path) (a.schemaStep.toList ++ schemaPath)) =
        (own.filter (·.isAt path schemaPath)).map
          (·.lift a.step.toList a.schemaStep.toList) := by
  have stated := hasDistinctNames_of_isPart (.of_member hx) distinct.schema.names
  have declared : (Table.keys (x.members?.getD [])).Nodup := by
    cases x with
    | obj members => exact nodup_keys_of_hasDistinctNames stated
    | null | bool b | int i | float y | str s | arr items => exact .nil
  have present : ∀ members, outer.value = .obj members → (Table.keys members).Nodup :=
    fun members same => nodup_keys_of_hasDistinctNames (same ▸ distinct.value)
  have noNames : keyword ≠ "propertyNames" := by
    rintro rfl
    obtain ⟨name, same⟩ := name_of_mem_applications applied
    exact noName name same
  obtain ⟨inValue, inSchema, shape⟩ : ∃ inValue inSchema,
      ∀ b ∈ applications scope outer.hops outer.base outer.schema keyword x outer.value,
        b.HasShape inValue inSchema := exists_shape
  have nonempty : (a.schemaStep.toList ++ schemaPath).map Step.segment ≠ [] := by simp [below]
  have refusalFails (e : Violation) (refused : e.schemaPath = []) :
      e.isAt (a.step.toList ++ path) (a.schemaStep.toList ++ schemaPath) = false := by
    rw [← Bool.not_eq_true, isAt_iff, refused]
    exact fun same => nonempty same.2.symm
  have ownFail (e : Violation)
      (refused : IsRefusalBy outer.schema keyword x outer.value e) :
      e.isAt (a.step.toList ++ path) (a.schemaStep.toList ++ schemaPath) = false := by
    obtain ⟨message, rfl⟩ := refused
    exact refusalFails _ rfl
  have othersFail : ∀ b ∈ applications scope outer.hops outer.base outer.schema keyword x
      outer.value, b.label ≠ a.label → ∀ found, b.find scope outer.base = .ok found →
        found.filter (·.isAt (a.step.toList ++ path) (a.schemaStep.toList ++ schemaPath)) = [] := by
    intro b otherApplied differ found run
    refine List.filter_eq_nil_iff.2 fun e mem => ?_
    rw [Bool.not_eq_true]
    have keeps := keeps_of_mem_applications distinct.schema.dialect hx otherApplied
    rcases cases_of_mem_find keeps run mem with ⟨-, -, refused⟩ | ⟨-, -, -, -, -, -, e, -, rfl⟩
    · exact refusalFails e refused
    · rw [← Bool.not_eq_true, isAt_iff, Violation.under]
      rintro ⟨samePath, sameSchemaPath⟩
      exact differ (label_eq_of_append (shape b otherApplied) (shape a applied) samePath
        sameSchemaPath)
  obtain ⟨own, run, same⟩ := composed.filter_eq Application.label ownFail
    (nodup_labels declared present noNames) applied othersFail
  have opened : Dialect.draft7.baseInside outer.base sub = .ok inside := opened
  rw [Application.find, isTable, descend, opened] at run
  dsimp only at run
  split at run
  · cases run
  · next d named =>
      obtain rfl := keeps_of_mem_applications distinct.schema.dialect hx applied sub isTable d named
      obtain ⟨own, ran, rfl⟩ := map_eq_ok_iff.1 run
      exact ⟨own, ran, same.trans (filter_map_lift _ _ own)⟩

/-! ## The place of an evaluation -/

/-- Below a text there are only texts. -/
theorem Leads.text (leads : Leads scope outer path schemaPath inner) {s : String}
    (text : outer.value = .str s) : ∃ s, inner.value = .str s := by
  induction leads generalizing s with
  | here => exact ⟨s, text⟩
  | reference _ _ _ _ ih => exact ih text
  | @applied outer inner keyword inside x a sub path schemaPath active applied _ _ _ ih =>
      have below := isBelow_of_mem_applications (mem_of_mem_activeKeywords active) a applied
      rcases below.part with part | ⟨name, isName⟩
      · rw [text] at part
        cases value : a.value with
        | str name => exact ih value
        | _ =>
            rw [value] at part
            cases part
      · exact ih isName

theorem Evaluation.IsDistinct.below (distinct : outer.IsDistinct) {keyword inside : String}
    {x : Json} {a : Application} {sub : List (String × Json)} (hx : (keyword, x) ∈ outer.schema)
    (applied : a ∈ applications scope outer.hops outer.base outer.schema keyword x outer.value)
    (isTable : a.schema = .obj sub) : (Evaluation.mk a.hops inside sub a.value).IsDistinct := by
  have below := isBelow_of_mem_applications hx a applied
  refine ⟨isTable ▸ distinct.schema.of_isPart below.stands, ?_⟩
  rcases below.part with part | ⟨name, isName⟩
  · exact hasDistinctNames_of_isPart part distinct.value
  · rw [isName]
    rfl

theorem isDistinct_of_lookup (whole : IsOrderly scope.root) {base ref inside : String}
    {target : List (String × Json)} (led : scope.lookup base ref = .ok (.obj target, inside))
    {hops : Nat} {v : Json} (distinct : v.hasDistinctNames = true) :
    (Evaluation.mk hops inside target v).IsDistinct :=
  ⟨whole.of_isPart (lookup_part led).part, distinct⟩

/-- Evaluations lead to evaluations whose names are distinct. -/
theorem Leads.isDistinct (leads : Leads scope outer path schemaPath inner)
    (whole : IsOrderly scope.root) (distinct : outer.IsDistinct) :
    inner.IsDistinct := by
  induction leads with
  | here => exact distinct
  | reference _ _ led _ ih => exact ih (isDistinct_of_lookup whole led distinct.value)
  | applied active applied isTable _ _ ih =>
      exact ih (distinct.below (mem_of_mem_activeKeywords active) applied isTable)

/-- **The whole finds at the place of a keyword what the evaluation finds that stands there.** -/
theorem Leads.filter_run (leads : Leads scope outer path schemaPath inner)
    (whole : IsOrderly scope.root) (distinct : outer.IsDistinct)
    {members : List (String × Json)} (isObject : inner.value = .obj members)
    (done : outer.run scope = .ok found) {last : List Step} (some : last ≠ []) :
    ∃ own, inner.run scope = .ok own ∧
      found.filter (·.isAt path (schemaPath ++ last)) =
        (own.filter (·.isAt [] last)).map (·.lift path schemaPath) := by
  induction leads generalizing found with
  | here e =>
      refine ⟨found, done, ?_⟩
      rw [List.nil_append]
      exact (List.map_id _).symm
  | reference stated more led _ ih =>
      have keeps := whole.dialect.of_isPart (lookup_part led).part
      exact ih (isDistinct_of_lookup whole led distinct.value) isObject
        (run_of_reference stated more led keeps done)
  | @applied outer inner keyword inside x a sub path schemaPath active applied isTable opened below
      ih =>
      have hx := mem_of_mem_activeKeywords active
      have noReference : keyword ≠ "$ref" := by
        rintro rfl
        rw [applications_eq_nil (by decide)] at applied
        cases applied
      have noName (name : String) : a.value ≠ .str name := by
        intro isName
        obtain ⟨text, isText⟩ := below.text isName
        rw [isObject] at isText
        cases isText
      obtain ⟨step, rest, begins, first⟩ := exists_firstStep applied (schemaPath ++ last)
      have place : keywordSteps keyword ++ a.schemaStep.toList ++ schemaPath ++ last =
          keywordSteps keyword ++ (a.schemaStep.toList ++ (schemaPath ++ last)) := by
        simp only [List.append_assoc]
      rw [place]
      obtain ⟨own, run, passed⟩ := filter_keyword (a.step.toList ++ path) distinct active
        noReference first begins done
      obtain ⟨below, ran, selected⟩ := filter_application path distinct hx applied isTable
        opened noName (List.append_ne_nil_of_right_ne_nil schemaPath some)
        (composed_of_applyKeyword noReference hx run)
      obtain ⟨last, innerRan, same⟩ := ih (distinct.below hx applied isTable) isObject ran
      refine ⟨last, innerRan, ?_⟩
      rw [passed, ← List.nil_append (a.step.toList ++ path), filter_map_lift, selected, same,
        List.map_map, List.map_map]
      refine List.map_congr_left fun e _ => ?_
      simp only [Function.comp_apply, lift_lift, List.nil_append, List.append_assoc]

/-- **At the place of a keyword that applies no subschemas the whole finds the refusals of that keyword
by the evaluation that stands there**, and nothing else. -/
theorem Leads.filter_refusals (leads : Leads scope outer path schemaPath inner)
    (whole : IsOrderly scope.root) (distinct : outer.IsDistinct)
    {members : List (String × Json)} (isObject : inner.value = .obj members)
    (done : outer.run scope = .ok found) {keyword : String} {x : Json}
    (active : (keyword, x) ∈ activeKeywords inner.schema) (noReference : keyword ≠ "$ref")
    (first : keyword ∈ firstSteps keyword)
    (none : applications scope inner.hops inner.base inner.schema keyword x inner.value = []) :
    ∃ own, applyKeyword .draft7 scope inner.hops false inner.base inner.schema keyword x
        (mem_of_mem_activeKeywords active) inner.value = .ok own ∧
      (∀ e ∈ own, IsRefusalBy inner.schema keyword x inner.value e) ∧
      found.filter (·.isAt path (schemaPath ++ [.key keyword])) =
        own.map (·.lift path (schemaPath ++ [.key keyword])) := by
  have noCondition : keyword ≠ "if" := by
    rintro rfl
    exact absurd first (by decide)
  have speaks : keyword ∉ silentKeywords := by
    intro silent
    rw [firstSteps, if_neg noCondition, if_pos silent] at first
    cases first
  obtain ⟨below, ran, selected⟩ := leads.filter_run whole distinct isObject done
    (List.cons_ne_nil (Step.key keyword) [])
  obtain ⟨own, applied, passed⟩ := filter_keyword [] (leads.isDistinct whole distinct)
    active noReference first rfl ran
  have refusals : ∀ e ∈ own, IsRefusalBy inner.schema keyword x inner.value e := by
    intro e mem
    rcases (composed_of_applyKeyword noReference _ applied).cases_of_mem mem with
      refusal | ⟨a, listed, -⟩
    · exact refusal
    · rw [none] at listed
      cases listed
  have all : (own.map (·.lift [] [.key keyword])).filter (·.isAt [] [.key keyword]) =
      own.map (·.lift [] [.key keyword]) := by
    refine List.filter_eq_self.2 fun e mem => ?_
    obtain ⟨refusal, listed, rfl⟩ := List.mem_map.1 mem
    obtain ⟨message, rfl⟩ := refusals refusal listed
    exact isAt_iff.2 ⟨rfl, rfl⟩
  rw [keywordSteps_eq noReference noCondition speaks, all] at passed
  refine ⟨own, applied, refusals, ?_⟩
  rw [selected, passed, List.map_map]
  refine List.map_congr_left fun e _ => ?_
  rw [Function.comp_apply, lift_lift, List.append_nil]

/-! ## Every violation has its evaluation -/

/-- What a reference finds is what the schema finds that it names, if that is not the schema that
refuses everything. -/
theorem cases_of_reference (keeps : KeepsDialect scope.root) {hops : Nat} {base ref : String}
    {schema : List (String × Json)} {v : Json} (hx : ("$ref", .str ref) ∈ schema)
    (done : applyKeyword .draft7 scope hops false base schema "$ref" (.str ref) hx v = .ok found) :
    (∀ e ∈ found, e.keyword = none) ∨ ∃ fewer target inside, hops = fewer + 1 ∧
      scope.lookup base ref = .ok (.obj target, inside) ∧
      (Evaluation.mk fewer inside target v).run scope = .ok found := by
  have meaning : Dialect.draft7.meaning? schema "$ref" = some .reference := rfl
  rw [applyKeyword_reference meaning, follow.eq_def] at done
  cases hops with
  | zero => cases done
  | succ fewer =>
      dsimp only at done
      split at done
      · cases done
      · next target inside led =>
          split at done
          · cases done
          · next own named =>
              cases target with
              | obj target =>
                  obtain rfl := keeps target (lookup_part led).part own named
                  exact .inr ⟨fewer, target, inside, rfl, led, done⟩
              | bool b =>
                  dsimp only at done
                  rw [descend.eq_def] at done
                  cases b with
                  | true =>
                      cases done
                      exact .inl (List.forall_mem_nil _)
                  | false =>
                      obtain ⟨-, rfl⟩ := showing_eq_ok_iff.1 done
                      exact .inl fun e mem => by rw [List.mem_singleton.1 mem]
              | null | int i | float y | str s | arr items => cases done

/-- **Every refusal by a keyword comes from an evaluation**, and stands where the evaluation and the
keyword stand. -/
theorem exists_leads {outer : Evaluation} {found : List Violation}
    (whole : IsOrderly scope.root) (distinct : outer.IsDistinct)
    (done : outer.run scope = .ok found) {e : Violation} (mem : e ∈ found) {keyword : String}
    (refusing : e.keyword = some keyword) :
    ∃ path schemaPath inner x message, Leads scope outer path schemaPath inner ∧
      (keyword, x) ∈ activeKeywords inner.schema ∧
      e = (Violation.here inner.schema keyword x inner.value message).lift path
        (schemaPath ++ keywordSteps keyword) := by
  rcases (composed_of_run done).cases_of_mem mem with none | ⟨⟨⟨other, x⟩, active⟩, -, below, run, mem⟩
  · exact none.elim
  · have hx := mem_of_mem_activeKeywords active
    obtain ⟨own, applied, rfl⟩ := keywordFind_eq_ok_iff.1 run
    obtain ⟨e, own_mem, rfl⟩ := List.mem_map.1 mem
    by_cases reference : other = "$ref"
    · subst reference
      obtain ⟨ref, stated, rfl⟩ := reference_of_active distinct active run
      rcases cases_of_reference whole.dialect hx applied with
        refused | ⟨fewer, target, inside, more, led, ran⟩
      · have none : e.keyword = none := refused e own_mem
        rw [Violation.lift, none] at refusing
        cases refusing
      · have lighter : fewer < outer.hops := by omega
        obtain ⟨path, schemaPath, inner, x, message, leads, stands, same⟩ :=
          exists_leads whole (isDistinct_of_lookup whole led distinct.value) ran own_mem refusing
        exact ⟨path, schemaPath, inner, x, message, .reference stated more led leads, stands, same⟩
    · rcases (composed_of_applyKeyword reference hx applied).cases_of_mem own_mem with
        ⟨message, rfl⟩ | ⟨a, listed, below, found, below_mem⟩
      · cases refusing
        exact ⟨[], [], _, x, message, .here _, active, rfl⟩
      · have keeps := keeps_of_mem_applications distinct.schema.dialect hx listed
        rcases cases_of_mem_find keeps found below_mem with
          ⟨none, -, -⟩ | ⟨sub, inside, found, isTable, opened, ran, e, found_mem, rfl⟩
        · rw [Violation.lift, none] at refusing
          cases refusing
        · have lighter := (isBelow_of_mem_applications hx a listed).lighter
          obtain ⟨path, schemaPath, inner, y, message, leads, stands, rfl⟩ :=
            exists_leads whole (distinct.below hx listed isTable) ran found_mem refusing
          exact ⟨_, _, inner, y, message, .applied active listed isTable opened leads, stands, by
            simp only [Violation.under, Violation.lift, List.append_assoc, List.nil_append]⟩
termination_by (outer.value.weight, outer.hops, Json.weightMembers outer.schema)
decreasing_by
  · simp only [Prod.lex_def, true_and]
    exact .inr (.inl lighter)
  · simp only [Prod.lex_def]
    rcases lighter with lighter | ⟨value, hops, lighter⟩
    · exact .inl lighter
    · rw [isTable, Json.weight] at lighter
      exact .inr ⟨congrArg Json.weight value, .inr ⟨hops, by omega⟩⟩

/-! ## Evaluating a whole value -/

/-- The scope in which a schema document is evaluated that gives itself an address or none. -/
def wholeScope (document : List (String × Json)) (own : Option String) : Scope :=
  ⟨.obj document, own.getD ""⟩

/-- The evaluation of a value against a schema document. -/
def wholeEvaluation (document : List (String × Json)) (own : Option String) (v : Json) :
    Evaluation :=
  ⟨(wholeScope document own).chainLimit, own.getD "", document, v⟩

/-- The evaluation of a value against a schema document leads to another one, by steps in the value
and steps in the document. -/
def Evaluates (document v : Json) (path schemaPath : List Step) (inner : Evaluation) : Prop :=
  ∃ keywords own, document = .obj keywords ∧ ownAddress? document = .ok own ∧
    Leads (wholeScope keywords own) (wholeEvaluation keywords own v) path schemaPath inner

section Whole

variable {document v : Json}

theorem violations_eq_run {keywords : List (String × Json)} {own : Option String}
    (address : ownAddress? (.obj keywords) = .ok own) :
    violations (.obj keywords) v =
      (wholeEvaluation keywords own v).run (wholeScope keywords own) := by
  rw [violations, address]
  rfl

/-- Every refusal of a value by a keyword comes from an evaluation of a part of it. -/
theorem exists_evaluates (orderly : IsOrderly document)
    (valueNames : v.hasDistinctNames = true) (done : violations document v = .ok found)
    {e : Violation} (mem : e ∈ found) {keyword : String} (refusing : e.keyword = some keyword) :
    ∃ path schemaPath inner x message, Evaluates document v path schemaPath inner ∧
      (keyword, x) ∈ activeKeywords inner.schema ∧
      e = (Violation.here inner.schema keyword x inner.value message).lift path
        (schemaPath ++ keywordSteps keyword) := by
  cases address : ownAddress? document with
  | error fault =>
      rw [violations, address] at done
      cases done
  | ok own =>
      cases document with
      | obj keywords =>
          rw [violations_eq_run address] at done
          obtain ⟨path, schemaPath, inner, x, message, leads, stands⟩ :=
            exists_leads orderly ⟨orderly, valueNames⟩ done mem refusing
          exact ⟨path, schemaPath, inner, x, message, ⟨_, _, rfl, address, leads⟩, stands⟩
      | bool b =>
          rw [violations, address] at done
          simp only [descend.eq_def] at done
          cases b with
          | true =>
              cases done
              cases mem
          | false =>
              obtain ⟨-, rfl⟩ := showing_eq_ok_iff.1 done
              rw [List.mem_singleton.1 mem] at refusing
              cases refusing
      | null | int i | float y | str s | arr items =>
          rw [violations, address] at done
          simp only [descend.eq_def] at done
          cases done

end Whole

end RouteContract.Schema
