import RouteContract.Proofs.Schema.Answer
import RouteContract.Proofs.Schema.Choking

/-!
# Violations at their places

Where coercion takes a part of a value to a schema, evaluation applies the same schema to it, unless
a pattern provides for the part. What the schema finds there is found by the document at the place
of the part (`finds_of_governs`) and has an entry in the report (`exists_entry`).
-/

set_option autoImplicit false

namespace RouteContract.Schema

open RouteContract Json Pointer

/-! ## Violations further inside -/

/-- One violation is another one seen from further outside. -/
structure Violation.Lifts (steps : List Step) (inner outer : Violation) : Prop where
  keyword : outer.keyword = inner.keyword
  keywordValue : outer.keywordValue = inner.keywordValue
  message : outer.message = inner.message
  path : outer.path = steps ++ inner.path

/-- An evaluation finds what another one has found further inside. -/
def Finds (steps : List Step) (inner : List Violation) (r : Except Fault (List Violation)) : Prop :=
  ∃ outer, r = .ok outer ∧ ∀ e ∈ inner, ∃ e' ∈ outer, Violation.Lifts steps e e'

namespace Finds

variable {α : Type} {steps : List Step} {inner found : List Violation}
  {r : Except Fault (List Violation)}

theorem self (done : r = .ok found) : Finds [] found r :=
  ⟨found, done, fun e mem => ⟨e, mem, rfl, rfl, rfl, rfl⟩⟩

theorem under (h : Finds steps inner r) (step schemaStep : Option Step) :
    Finds (step.toList ++ steps) inner (r.map (·.map (·.under step schemaStep))) := by
  obtain ⟨outer, rfl, each⟩ := h
  refine ⟨outer.map (·.under step schemaStep), rfl, ?_⟩
  intro e mem
  obtain ⟨e', mem, lifts⟩ := each e mem
  refine ⟨_, List.mem_map_of_mem mem, lifts.keyword, lifts.keywordValue, lifts.message, ?_⟩
  rw [Violation.under, lifts.path, List.append_assoc]

/-- What one element of a list finds, the whole list finds. -/
theorem collect {f : α → Except Fault (List Violation)} {xs : List α} {x : α} (mem : x ∈ xs)
    (answers : Answers (collect false f xs)) (h : Finds steps inner (f x)) :
    Finds steps inner (collect false f xs) := by
  obtain ⟨found, done⟩ := answers
  obtain ⟨own, found_own, each⟩ := h
  suffices among : ∀ e ∈ own, e ∈ found by
    refine ⟨found, done, ?_⟩
    intro e mem
    obtain ⟨e', mem, lifts⟩ := each e mem
    exact ⟨e', among e' mem, lifts⟩
  clear each
  induction xs generalizing found with
  | nil => cases mem
  | cons first rest ih =>
      rw [collect_cons] at done
      cases head : f first with
      | error e =>
          rw [head] at done
          cases done
      | ok ys =>
          rw [head] at done
          obtain ⟨more, later, rfl⟩ := map_eq_ok_iff.1 done
          intro e listed
          rcases List.mem_cons.1 mem with rfl | mem
          · rw [head] at found_own
            cases found_own
            exact List.mem_append_left more listed
          · exact List.mem_append_right ys (ih mem more later e listed)

end Finds

/-! ## Evaluation -/

/-- No schema of a document has patterns beside a schema for additional members. -/
def KeepsPatternsApart (root : Json) : Prop :=
  ∀ keywords extra, Stands root (.obj keywords) → additionalSchema? keywords = some extra →
    Table.get? keywords "patternProperties" = none

section Evaluation

variable {root whole : Json} {address base inside : String} {hops : Nat}
  {keywords members sub : List (String × Json)} {v : Json} {steps : List Step}
  {found : List Violation}

/-- What an active keyword finds, the schema finds. -/
theorem Finds.applyAll (manageable : IsManageable root whole)
    (met : Meets root whole (.obj keywords) v) (follow : MayFollow root hops (.obj keywords))
    (reads : ReadsFrom address base (.obj keywords)) {keyword : String} {x : Json}
    (active : (keyword, x) ∈ activeKeywords keywords)
    (h : Answers (applyKeyword .draft7 ⟨root, address⟩ hops false base keywords keyword x
        (mem_of_mem_activeKeywords active) v) →
      Finds steps found (applyKeyword .draft7 ⟨root, address⟩ hops false base keywords keyword x
        (mem_of_mem_activeKeywords active) v)) :
    Finds steps found (applyAll .draft7 .draft7 ⟨root, address⟩ hops false base keywords v) := by
  have answers : Answers (Schema.applyAll .draft7 .draft7 ⟨root, address⟩ hops false base keywords v) :=
    (applyAll_returns manageable met follow reads).answers
  have one := h (applyKeyword_returns manageable met follow reads active).answers
  rw [Schema.applyAll] at answers ⊢
  have listed : ⟨(keyword, x), active⟩ ∈ (Dialect.draft7.countingKeywords keywords).attach :=
    List.mem_attach _ _
  refine .collect listed answers ?_
  dsimp only
  split
  · obtain ⟨outer, done, each⟩ := one
    rw [done]
    exact ⟨outer, rfl, each⟩
  · exact one.under none _

theorem Finds.descend {limit : Nat} {step schemaStep : Option Step}
    (opened : baseInside base (.obj sub) = .ok inside)
    (native : Dialect.draft7.inside (.obj sub) = .ok .draft7)
    (h : Finds steps found (Schema.applyAll .draft7 .draft7 ⟨root, address⟩ limit false inside sub v)) :
    Finds (step.toList ++ steps) found
      (Schema.descend .draft7 ⟨root, address⟩ limit false base step schemaStep (.obj sub) v) := by
  rw [descend_native opened native]
  exact h.under step schemaStep

theorem finds_reference {ref : String} (manageable : IsManageable root whole)
    (met : Meets root whole (.obj keywords) v) (follow : MayFollow root (hops + 1) (.obj keywords))
    (stated : Table.get? keywords "$ref" = some (.str ref))
    (led : (Scope.mk root address).lookup address ref = .ok (.obj sub, inside))
    (native : Dialect.draft7.inside (.obj sub) = .ok .draft7)
    (h : Finds steps found (applyAll .draft7 .draft7 ⟨root, address⟩ hops false inside sub v)) :
    Finds steps found
      (applyAll .draft7 .draft7 ⟨root, address⟩ (hops + 1) false address keywords v) := by
  have meaning : Dialect.draft7.meaning? keywords "$ref" = some .reference := rfl
  have active : ("$ref", .str ref) ∈ activeKeywords keywords := by
    rw [activeKeywords, stated]
    exact List.mem_singleton_self _
  refine .applyAll manageable met follow (.self address _) active ?_
  intro _
  rw [applyKeyword_reference meaning, follow_native led native]
  exact h

section Parts

variable {name : String} {w : Json} (manageable : IsManageable root whole)
  (follow : MayFollow root hops (.obj keywords)) (reads : ReadsFrom address base (.obj keywords))
  (plain : Table.get? keywords "$ref" = none) (opened : baseInside base (.obj sub) = .ok inside)
  (native : Dialect.draft7.inside (.obj sub) = .ok .draft7)
  (h : Finds steps found
    (applyAll .draft7 .draft7 ⟨root, address⟩ (Scope.mk root address).chainLimit false inside sub w))
include manageable follow reads plain opened native h

theorem finds_property {subs : List (String × Json)}
    (met : Meets root whole (.obj keywords) (.obj members))
    (stated : ("properties", .obj subs) ∈ keywords) (declared : (name, .obj sub) ∈ subs)
    (memberAt : Table.get? members name = some w) :
    Finds (.key name :: steps) found
      (applyAll .draft7 .draft7 ⟨root, address⟩ hops false base keywords (.obj members)) := by
  have active : ("properties", .obj subs) ∈ activeKeywords keywords := by
    rwa [activeKeywords_eq_self plain]
  refine .applyAll manageable met follow reads active ?_
  intro answers
  rw [applyKeyword_properties] at answers ⊢
  refine .collect declared answers ?_
  rw [memberAt]
  exact h.descend opened native

/-- Without patterns, every undeclared member is an additional one. -/
theorem finds_additional (met : Meets root whole (.obj keywords) (.obj members))
    (stated : ("additionalProperties", .obj sub) ∈ keywords)
    (noPatterns : Table.get? keywords "patternProperties" = none)
    (undeclared : namesContain ((Table.get? keywords "properties").getD (.obj [])) name = .ok false)
    (memberAt : Table.get? members name = some w) :
    Finds (.key name :: steps) found
      (applyAll .draft7 .draft7 ⟨root, address⟩ hops false base keywords (.obj members)) := by
  have active : ("additionalProperties", .obj sub) ∈ activeKeywords keywords := by
    rwa [activeKeywords_eq_self plain]
  have joined : joinedPatterns keywords = .ok "" := by
    rw [joinedPatterns, noPatterns]
    rfl
  refine .applyAll manageable met follow reads active ?_
  intro answers
  obtain ⟨extras, kept⟩ := exists_additional answers.choose_spec
  rw [applyKeyword_additional kept] at answers ⊢
  rw [additionalMembers, joined] at kept
  have member := List.mem_attach _ ⟨(name, w), Table.mem_of_get? memberAt⟩
  have additional : ⟨(name, w), Table.mem_of_get? memberAt⟩ ∈ extras := by
    rcases keepIf_decided kept member with ⟨-, listed⟩ | provided
    · exact listed
    · rw [isAdditional, undeclared] at provided
      cases provided
  exact .collect additional answers (h.descend opened native)

end Parts

section Items

variable {items : List Json} {item : Json} {i : Nat} (manageable : IsManageable root whole)
  (met : Meets root whole (.obj keywords) (.arr items))
  (follow : MayFollow root hops (.obj keywords)) (reads : ReadsFrom address base (.obj keywords))
  (plain : Table.get? keywords "$ref" = none) (itemAt : items[i]? = some item)
  (opened : baseInside base (.obj sub) = .ok inside)
  (native : Dialect.draft7.inside (.obj sub) = .ok .draft7)
  (h : Finds steps found
    (applyAll .draft7 .draft7 ⟨root, address⟩ (Scope.mk root address).chainLimit false inside sub item))
include manageable met follow reads plain itemAt opened native h

theorem finds_item (governed : itemSchema? keywords i = some (.obj sub)) :
    Finds (.index i :: steps) found
      (applyAll .draft7 .draft7 ⟨root, address⟩ hops false base keywords (.arr items)) := by
  rw [itemSchema?] at governed
  split at governed
  · next subs stated =>
      have active : ("items", .arr subs) ∈ activeKeywords keywords := by
        rw [activeKeywords_eq_self plain]
        exact Table.mem_of_get? stated
      refine .applyAll manageable met follow reads active ?_
      intro answers
      rw [applyKeyword_items_each] at answers ⊢
      have pair : ((item, .obj sub), i) ∈ (items.zip subs).zipIdx :=
        List.mk_mem_zipIdx_iff_getElem?.2 (List.getElem?_zip_eq_some.2 ⟨itemAt, governed⟩)
      exact .collect pair answers (h.descend opened native)
  · next inner stated =>
      cases governed
      have active : ("items", .obj sub) ∈ activeKeywords keywords := by
        rw [activeKeywords_eq_self plain]
        exact Table.mem_of_get? stated
      refine .applyAll manageable met follow reads active ?_
      intro answers
      rw [applyKeyword_items (by simp)] at answers ⊢
      exact .collect (List.mk_mem_zipIdx_iff_getElem?.2 itemAt) answers (h.descend opened native)
  · cases governed

end Items

theorem Governs.exists_keywords {schema part : Json} {inner : List (String × Json)}
    (governs : Governs root schema v steps inner part) : ∃ keywords, schema = .obj keywords := by
  cases governs with
  | here | reference | member | item => exact ⟨_, rfl⟩

/-- **What a schema finds in a part of a value, the document finds at the place of the part.** -/
theorem finds_of_governs (manageable : IsManageable root whole) (apart : KeepsPatternsApart root)
    {schema part : Json} {inner : List (String × Json)}
    (governs : Governs root schema v steps inner part) (met : Meets root whole schema v)
    (follow : MayFollow root hops schema) (reads : ReadsFrom address base schema)
    (same : schema = .obj keywords) :
    ∃ limit within found, MayFollow root limit (.obj inner) ∧
      ReadsFrom address within (.obj inner) ∧
      applyAll .draft7 .draft7 ⟨root, address⟩ limit false within inner part = .ok found ∧
      Finds steps found (applyAll .draft7 .draft7 ⟨root, address⟩ hops false base keywords v) := by
  induction governs generalizing hops base keywords with
  | @here inner part =>
      cases same
      obtain ⟨found, done⟩ :
          Answers (applyAll .draft7 .draft7 ⟨root, address⟩ hops false base inner part) :=
        (applyAll_returns manageable met follow reads).answers
      exact ⟨hops, base, found, follow, reads, done, .self done⟩
  | reference stated leads below ih =>
      cases same
      obtain ⟨target, rfl⟩ := below.exists_keywords
      have stated := (stated_of_localReference? stated).1
      have further := met.target stated leads
      obtain ⟨fewer, rfl, onward⟩ := follow.follow met.isPartOrText.part stated leads
        (manageable.wellFormed.acyclic _ further.stands)
      obtain ⟨inside, led, entered⟩ := leads.2 address
      obtain ⟨limit, within, found, last, home, done, finds⟩ := ih further onward entered rfl
      refine ⟨limit, within, found, last, home, done, ?_⟩
      rw [reads.base_eq stated]
      have native := manageable.wellFormed.native _ further.stands
      exact finds_reference manageable met follow stated led native finds
  | member plain memberAt governed below ih =>
      cases same
      obtain ⟨sub, rfl⟩ := below.exists_keywords
      have sound := manageable.wellFormed.sound _ met.stands
      have plain := sound.localReference?_eq_none_iff.1 plain
      have usable := sound.usable plain
      have applies := appliesBelow_of_memberSchema? usable (Table.mem_of_get? memberAt) governed
      have further := met.inside plain applies
      obtain ⟨inside, opened, entered⟩ :=
        manageable.opens further.stands met.isPartOrText.part applies.under reads
      have native := manageable.wellFormed.native _ further.stands
      obtain ⟨limit, within, found, last, home, done, finds⟩ :=
        ih further (.start address _) entered rfl
      refine ⟨limit, within, found, last, home, done, ?_⟩
      rcases declared_or_additional usable governed with
        ⟨declared, stated, mem⟩ | ⟨stated, additional, undeclared⟩
      · exact finds_property manageable follow reads plain opened native finds met stated mem
          memberAt
      · have noPatterns := apart _ _ met.stands additional
        exact finds_additional manageable follow reads plain opened native finds met stated
          noPatterns undeclared memberAt
  | item plain itemAt governed below ih =>
      cases same
      obtain ⟨sub, rfl⟩ := below.exists_keywords
      have sound := manageable.wellFormed.sound _ met.stands
      have plain := sound.localReference?_eq_none_iff.1 plain
      have applies := appliesBelow_of_itemSchema? itemAt governed
      have further := met.inside plain applies
      obtain ⟨inside, opened, entered⟩ :=
        manageable.opens further.stands met.isPartOrText.part applies.under reads
      have native := manageable.wellFormed.native _ further.stands
      obtain ⟨limit, within, found, last, home, done, finds⟩ :=
        ih further (.start address _) entered rfl
      exact ⟨limit, within, found, last, home, done,
        finds_item manageable met follow reads plain itemAt opened native finds governed⟩

/-- A value of no declared type is refused by the keyword `type`. -/
theorem isOfSomeType_of_not_any {types : List Json} (known : types.all isTypeName = true)
    (refused : types.any (admitsDeclared v) = false) :
    isOfSomeType TypeName.admits v types = .ok false := by
  obtain ⟨b, answer⟩ := isOfSomeType_answers known TypeName.admits v
  cases b with
  | false => exact answer
  | true =>
      rw [any_of_isOfSomeType answer] at refused
      cases refused

theorem type_refuses {x : Json} (usable : Assertion.type.canUse x = true)
    (shown : v.isWritable = true) (refused : (declaredTypes x).any (admitsDeclared v) = false) :
    ∃ message, Assertion.type.failures false x v = .ok [message] := by
  rw [Assertion.failures, typeFailures, typeNames_of_canUse usable]
  refine ⟨_, refuteUnless_eq_ok_iff.2 (.inr ⟨isOfSomeType_of_not_any usable refused, ?_, rfl⟩)⟩
  rw [List.all_cons, shown, Bool.true_and]
  exact isWritable_of_areTypeNames usable

theorem Governs.localReference?_eq_none {schema part : Json} {inner : List (String × Json)}
    (governs : Governs root schema v steps inner part) : localReference? inner = none := by
  induction governs with
  | here plain => exact plain
  | reference _ _ _ ih | member _ _ _ _ ih | item _ _ _ _ ih => exact ih

/-- **A part of a value that is of no declared type is refused at its place.** -/
theorem type_found (manageable : IsManageable root whole) (apart : KeepsPatternsApart root)
    {part x : Json} {inner : List (String × Json)}
    (governs : Governs root root whole steps inner part)
    (stated : Table.get? inner "type" = some x)
    (refused : (declaredTypes x).any (admitsDeclared part) = false) :
    ∃ found, violations root whole = .ok found ∧
      ∃ e ∈ found, e.keyword = some "type" ∧ e.path = steps := by
  have met := governs.meets manageable.wellFormed .document
  have sound := manageable.wellFormed.sound _ met.stands
  have plain := sound.localReference?_eq_none_iff.1 governs.localReference?_eq_none
  have listed := Table.mem_of_get? stated
  have active : ("type", x) ∈ activeKeywords inner := by
    rwa [activeKeywords_eq_self plain]
  obtain ⟨message, refusal⟩ := type_refuses (sound.usable plain _ listed)
    (met.value.isWritable manageable.moderate.shown) refused
  obtain ⟨keywords, same⟩ := governs.exists_keywords
  obtain ⟨own, read⟩ := manageable.wellFormed.addressed root ⟨whole, whole, .document⟩
  obtain ⟨limit, within, found, follow, reads, done, outer, evaluated, each⟩ :=
    finds_of_governs manageable apart governs .document (.start (own.getD "") root)
      (.self (own.getD "") root) same
  -- The schema that governs the part finds the refusal there, and so does the document.
  obtain ⟨e, among, lifts⟩ : ∃ e ∈ found,
      Violation.Lifts [] (.here inner "type" x part message) e := by
    have own : Finds [] [.here inner "type" x part message]
        (applyAll .draft7 .draft7 ⟨root, own.getD ""⟩ limit false within inner part) := by
      refine .applyAll manageable met follow reads active fun _ => .self ?_
      have known : Assertion.ofKeyword? "type" = some .type := rfl
      rw [applyKeyword_assertion (meaning?_of_assertion known), refusal]
      rfl
    obtain ⟨found', done', each⟩ := own
    rw [done] at done'
    cases done'
    exact each _ (List.mem_singleton_self _)
  obtain ⟨e', among', lifts'⟩ := each e among
  refine ⟨outer, ?_, e', among', lifts'.keyword.trans lifts.keyword, ?_⟩
  · rw [violations, read]
    subst same
    exact evaluated
  · rw [lifts'.path, lifts.path]
    exact List.append_nil steps

end Evaluation

/-! ## Entries -/

/-- A violation of a keyword other than the two that are told apart by names has an entry of its
own. -/
theorem exists_entry {seen : Seen} {found : List Violation} {entries : List Entry}
    {keyword : String} (h : reportFrom seen found = .ok entries) {e : Violation} (among : e ∈ found)
    (named : e.keyword = some keyword) (notRequired : keyword ≠ "required")
    (notAdditional : keyword ≠ "additionalProperties") :
    ∃ entry ∈ entries, entry.keyword = keyword ∧ entry.message = e.message ∧
      entry.instancePath = Pointer.ofSteps e.path := by
  induction found generalizing seen entries with
  | nil => cases among
  | cons first rest ih =>
      rw [reportFrom] at h
      split at h
      · cases h
      · next own later done =>
          obtain ⟨more, reported, rfl⟩ := map_eq_ok_iff.1 h
          rcases List.mem_cons.1 among with rfl | among
          · rw [entriesOf.eq_def] at done
            simp only [named] at done
            split at done
            · next same _ => exact absurd (Option.some.inj same) notRequired
            · next same _ => exact absurd (Option.some.inj same) notAdditional
            · obtain ⟨params, -, pair⟩ := map_eq_ok_iff.1 done
              cases pair
              exact ⟨_, List.mem_append_left _ (List.mem_singleton_self _), rfl, rfl, rfl⟩
          · obtain ⟨entry, listed, same⟩ := ih reported among
            exact ⟨entry, List.mem_append_right _ listed, same⟩

end RouteContract.Schema
