import RouteContract.Proofs.Schema.Loss
import RouteContract.Proofs.Schema.WellFormed

/-!
# Evaluation answers

Evaluating a value against a well-formed schema comes to an end without a fault, and what it finds
can be reported (`violations_answers`), unless a number or a pattern in the value is too large for a
keyword that looks at it or for a message. For each keyword that applies subschemas, a lemma says
that it answers when the subschemas do; the induction over value, references and schema puts them
together.
-/

set_option autoImplicit false

namespace RouteContract.Schema

open RouteContract Json Pointer

/-- An evaluation that answers with violations that can be reported. -/
def Returns (r : Except Fault (List Violation)) : Prop :=
  ∃ found, r = .ok found ∧ ∀ e ∈ found, e.IsSound

namespace Returns

variable {α : Type} {r : Except Fault (List Violation)}

theorem nothing : Returns (.ok []) := ⟨[], rfl, nofun⟩

theorem one {e : Violation} (sound : e.IsSound) : Returns (.ok [e]) :=
  ⟨[e], rfl, List.forall_mem_singleton.2 sound⟩

theorem answers (h : Returns r) : Answers r := by
  obtain ⟨found, done, -⟩ := h
  exact ⟨found, done⟩

theorem map {r : Except Fault α} {f : α → List Violation} (h : Answers r)
    (sound : ∀ a, ∀ e ∈ f a, e.IsSound) : Returns (r.map f) := by
  obtain ⟨a, rfl⟩ := h
  exact ⟨f a, rfl, sound a⟩

/-- The messages of a refusal that can be reported. -/
theorem messages {r : Except Fault (List String)} {refusal : String → Violation} (h : Answers r)
    (sound : ∀ message, (refusal message).IsSound) : Returns (r.map (·.map refusal)) := by
  refine .map h fun messages e mem => ?_
  obtain ⟨message, -, rfl⟩ := List.mem_map.1 mem
  exact sound message

section Findings

variable {verdict : Except Fault Bool} {shown : List Json} {e : Violation}

theorem showing (written : shown.all isWritable = true) (sound : e.IsSound) :
    Returns (showing shown e) := by
  rw [Schema.showing, if_pos written]
  exact one sound

theorem refuteWhen (h : Answers verdict) (written : shown.all isWritable = true)
    (sound : e.IsSound) : Returns (refuteWhen verdict shown e) := by
  obtain ⟨_ | _, rfl⟩ := h
  · exact nothing
  · exact showing written sound

theorem refuteUnless (h : Answers verdict) (written : shown.all isWritable = true)
    (sound : e.IsSound) : Returns (refuteUnless verdict shown e) :=
  refuteWhen (h.map _) written sound

end Findings

theorem under (h : Returns r) (step schemaStep : Option Step) :
    Returns (r.map (·.map (·.under step schemaStep))) := by
  obtain ⟨found, rfl, sound⟩ := h
  refine ⟨found.map (·.under step schemaStep), rfl, ?_⟩
  intro e mem
  obtain ⟨inner, listed, rfl⟩ := List.mem_map.1 mem
  exact (sound inner listed).under step schemaStep

theorem collect {f : α → Except Fault (List Violation)} {xs : List α} (onlyFirst : Bool)
    (each : ∀ x ∈ xs, Returns (f x)) : Returns (collect onlyFirst f xs) := by
  induction xs with
  | nil => exact nothing
  | cons x rest ih =>
      obtain ⟨first, later⟩ := List.forall_mem_cons.1 each
      obtain ⟨found, done, sound⟩ := first
      rw [Schema.collect, done]
      cases found with
      | nil => exact ih later
      | cons e more =>
          simp only
          split
          · exact ⟨e :: more, rfl, sound⟩
          · obtain ⟨others, done, soundLater⟩ := ih later
            rw [done]
            exact ⟨e :: more ++ others, rfl, List.forall_mem_append.2 ⟨sound, soundLater⟩⟩

end Returns

namespace Answers

variable {α β : Type}

theorem firstClean {f : α → Except Fault (List β)} {xs : List α}
    (each : ∀ x ∈ xs, Answers (f x)) : Answers (firstClean f xs) := by
  induction xs with
  | nil => exact .ok none
  | cons x rest ih =>
      obtain ⟨first, later⟩ := List.forall_mem_cons.1 each
      obtain ⟨found, done⟩ := first
      rw [Schema.firstClean, done]
      cases found with
      | nil => exact .ok _
      | cons => exact ih later

theorem keepIf {f : α → Except Fault Bool} {xs : List α} (each : ∀ x ∈ xs, Answers (f x)) :
    Answers (keepIf f xs) := by
  induction xs with
  | nil => exact .ok []
  | cons x rest ih =>
      obtain ⟨first, later⟩ := List.forall_mem_cons.1 each
      obtain ⟨b, done⟩ := first
      rw [Schema.keepIf, done]
      exact (ih later).map _

theorem existsIn {f : α → Except Fault Bool} {xs : List α} (each : ∀ x ∈ xs, Answers (f x)) :
    Answers (existsIn f xs) := by
  induction xs with
  | nil => exact .ok false
  | cons x rest ih =>
      obtain ⟨first, later⟩ := List.forall_mem_cons.1 each
      obtain ⟨b, done⟩ := first
      rw [Schema.existsIn, done]
      cases b with
      | true => exact .ok true
      | false => exact ih later

end Answers

section Attached

variable {α : Type} {xs : List α} {i n : Nat}

theorem getElem?_of_attach {x : { x // x ∈ xs }} (h : xs.attach[i]? = some x) :
    xs[i]? = some x.1 := by
  have value := congrArg (Option.map Subtype.val) h
  rwa [← List.getElem?_map, List.attach_map_subtype_val] at value

theorem mem_drop_of_attach {entry : { x // x ∈ xs } × Nat}
    (listed : entry ∈ xs.attach.zipIdx.drop n) : entry.1.1 ∈ xs.drop n := by
  have all : xs.attach.zipIdx.map (fun entry => entry.1.1) = xs := by
    calc xs.attach.zipIdx.map (fun entry => entry.1.1)
        = (xs.attach.zipIdx.map Prod.fst).map Subtype.val := (List.map_map ..).symm
      _ = xs := by rw [List.zipIdx_map_fst, List.attach_map_subtype_val]
  have value := List.mem_map_of_mem (f := fun entry => entry.1.1) listed
  rwa [List.map_drop, all] at value

end Attached

/-! ## Keywords -/

/-- What the subschemas of a schema find in a value and in its parts is answered. -/
structure Subschemas (scope : Scope) (hops : Nat) (base : String) (schema : List (String × Json))
    (v : Json) : Prop where
  here : ∀ (onlyFirst : Bool) (step schemaStep : Option Step) (sub : Json),
    AppliesHere schema sub → Returns (descend .draft7 scope hops onlyFirst base step schemaStep sub v)
  heldHere : ∀ sub, AppliesHere schema sub → Answers (satisfies .draft7 scope hops base sub v)
  below : ∀ (onlyFirst : Bool) (step schemaStep : Option Step) (sub part : Json),
    AppliesBelow schema v sub part →
      Returns (descend .draft7 scope scope.chainLimit onlyFirst base step schemaStep sub part)
  heldBelow : ∀ sub part, AppliesBelow schema v sub part →
    Answers (satisfies .draft7 scope scope.chainLimit base sub part)

section Keywords

variable {scope : Scope} {hops : Nat} {onlyFirst : Bool} {base : String}
  {schema : List (String × Json)} {keyword : String} {x v : Json}
  (usable : ∀ entry ∈ schema, canUse entry.1 entry.2 = true)
  (stated : (Json.obj schema).isWritable = true) (shown : v.isWritable = true)
  (subschemas : Subschemas scope hops base schema v)
include usable

/-- A refusal by a keyword of a schema that can use all it states. -/
theorem isSound_here (hx : (keyword, x) ∈ schema) (message : String) :
    (Violation.here schema keyword x v message).IsSound := by
  refine ⟨?_, usable⟩
  rintro keyword ⟨⟩
  exact hx

theorem assertion_returns (stated : (Json.obj schema).isWritable = true)
    (shown : v.isWritable = true) {assertion : Assertion}
    (known : Assertion.ofKeyword? keyword = some assertion) (hx : (keyword, x) ∈ schema)
    (copes : assertion.copes x v = true) :
    Returns (applyKeyword .draft7 scope hops onlyFirst base schema keyword x hx v) := by
  have can : assertion.canUse x = true := by
    have said := usable _ hx
    simpa only [canUse, known] using said
  rw [applyKeyword_assertion (meaning?_of_assertion known)]
  exact .messages (Assertion.failures_answers can copes (isWritable_obj_iff.1 stated _ hx) shown
    onlyFirst) (isSound_here usable hx)

omit usable in
theorem exists_items_of_canUse (known : keyword ∈ listKeywords) (h : canUse keyword x = true) :
    ∃ subs, x = .arr subs := by
  have isList : x.items?.isSome = true := by
    rcases List.mem_cons.1 known with rfl | known
    · exact h
    · rcases List.mem_cons.1 known with rfl | known
      · exact h
      · obtain rfl := List.mem_singleton.1 known
        exact h
  cases x with
  | arr subs => exact ⟨subs, rfl⟩
  | null | bool b | int i | float y | str s | obj members => cases isList

include subschemas

theorem allOf_returns (hx : ("allOf", x) ∈ schema) :
    Returns (applyKeyword .draft7 scope hops onlyFirst base schema "allOf" x hx v) := by
  have meaning : Dialect.draft7.meaning? schema "allOf" = some (.beside .allOf) := rfl
  have known : "allOf" ∈ listKeywords := by decide
  obtain ⟨subs, rfl⟩ := exists_items_of_canUse known (usable _ hx)
  rw [applyKeyword_beside meaning, applyBeside.eq_def]
  apply Returns.collect
  intro entry _
  exact subschemas.here onlyFirst none _ _ (.listed known hx entry.1.2)

include shown in
theorem anyOf_returns (hx : ("anyOf", x) ∈ schema) :
    Returns (applyKeyword .draft7 scope hops onlyFirst base schema "anyOf" x hx v) := by
  have meaning : Dialect.draft7.meaning? schema "anyOf" = some (.beside .anyOf) := rfl
  have known : "anyOf" ∈ listKeywords := by decide
  obtain ⟨subs, rfl⟩ := exists_items_of_canUse known (usable _ hx)
  rw [applyKeyword_beside meaning, applyBeside.eq_def]
  refine .refuteUnless (.map (.firstClean ?_) _) (by simp [shown]) (isSound_here usable hx _)
  intro sub _
  exact (subschemas.here false none none _ (.listed known hx sub.2)).answers

include stated shown in
theorem oneOf_returns (hx : ("oneOf", x) ∈ schema) :
    Returns (applyKeyword .draft7 scope hops onlyFirst base schema "oneOf" x hx v) := by
  have meaning : Dialect.draft7.meaning? schema "oneOf" = some (.beside .oneOf) := rfl
  have known : "oneOf" ∈ listKeywords := by decide
  obtain ⟨subs, rfl⟩ := exists_items_of_canUse known (usable _ hx)
  have written (sub : { sub // sub ∈ subs }) : sub.1.isWritable = true :=
    isWritable_arr_iff.1 (isWritable_obj_iff.1 stated _ hx) _ sub.2
  have first : Answers (firstClean
      (fun (sub : { sub // sub ∈ subs }) =>
        descend .draft7 scope hops false base none none sub.1 v) subs.attach) :=
    .firstClean fun sub _ =>
      (subschemas.here false none none _ (.listed known hx sub.2)).answers
  obtain ⟨first, done⟩ := first
  rw [applyKeyword_beside meaning, applyBeside.eq_def]
  simp only [done]
  split
  · next impossible => cases impossible
  · exact .showing (by simp [shown]) (isSound_here usable hx _)
  · next rest _ =>
      obtain ⟨more, kept⟩ : Answers (keepIf
          (fun (sub : { sub // sub ∈ subs }) => satisfies .draft7 scope hops base sub.1 v) rest) :=
        .keepIf fun sub _ => subschemas.heldHere _ (.listed known hx sub.2)
      simp only [kept]
      refine .refuteWhen (.ok _) (List.all_eq_true.2 fun y mem => ?_) (isSound_here usable hx _)
      rcases List.mem_cons.1 mem with rfl | mem
      · exact shown
      · obtain ⟨sub, -, rfl⟩ := List.mem_map.1 mem
        exact written sub

include stated shown in
theorem not_returns (hx : ("not", x) ∈ schema) :
    Returns (applyKeyword .draft7 scope hops onlyFirst base schema "not" x hx v) := by
  have meaning : Dialect.draft7.meaning? schema "not" = some (.beside .negation) := rfl
  have writtenSub : x.isWritable = true := isWritable_obj_iff.1 stated _ hx
  rw [applyKeyword_beside meaning, applyBeside.eq_def]
  exact .refuteWhen (subschemas.heldHere _ (.condition (by decide) hx)) (by simp [shown, writtenSub])
    (isSound_here usable hx _)

omit usable in
theorem if_returns (hx : ("if", x) ∈ schema) :
    Returns (applyKeyword .draft7 scope hops onlyFirst base schema "if" x hx v) := by
  have meaning : Dialect.draft7.meaning? schema "if" = some (.beside .condition) := rfl
  have decided : Table.has schema "if" = true :=
    (Table.has_iff_mem_keys schema "if").2 (Table.mem_keys_of_mem hx)
  obtain ⟨b, held⟩ := subschemas.heldHere x (.condition (by decide) hx)
  rw [applyKeyword_beside meaning, applyBeside.eq_def]
  simp only [held]
  split
  · exact .nothing
  · next sub stated =>
      have branch : (if b = true then "then" else "else") ∈ ["then", "else"] := by
        cases b <;> decide
      exact subschemas.here onlyFirst none _ sub (.branch branch decided stated)

omit usable in
theorem items_returns (hx : ("items", x) ∈ schema) :
    Returns (applyKeyword .draft7 scope hops onlyFirst base schema "items" x hx v) := by
  have meaning : Dialect.draft7.meaning? schema "items" = some (.forItems .items) := rfl
  rw [applyKeyword_forItems meaning]
  cases v with
  | arr items =>
      have all (isSchema : x.items? = none) :
          Returns (descendEach .draft7 scope onlyFirst base x 0 items) := by
        rw [descendEach]
        exact .collect onlyFirst fun entry _ =>
          subschemas.below onlyFirst _ none x _ (.items hx isSchema entry.1.2)
      dsimp only
      rw [applyToItems.eq_def]
      cases x with
      | arr subs =>
          dsimp only
          rw [descendInTurn]
          apply Returns.collect
          intro entry listed
          obtain ⟨itemAt, subAt⟩ :=
            List.getElem?_zip_eq_some.1 (List.mem_zipIdx_iff_getElem?.1 listed)
          refine subschemas.below onlyFirst _ _ _ _ (.eachItem hx (i := entry.2) ?_ ?_)
          · exact getElem?_of_attach subAt
          · exact getElem?_of_attach itemAt
      | null | bool b | int i | float y | str s | obj members => exact all rfl
  | null | bool b | int i | float y | str s | obj members => exact .nothing

omit subschemas in
/-- The items that have schemas of their own are counted unless a boolean stands for them all. -/
theorem fixedItems?_answers (counted : ∀ b, Table.get? schema "items" ≠ some (.bool b)) :
    Answers (fixedItems? schema) := by
  rw [fixedItems?]
  cases stated : Table.get? schema "items" with
  | none => exact .ok none
  | some x =>
      have can := usable _ (Table.mem_of_get? stated)
      cases x with
      | arr subs | obj sub => exact .ok _
      | bool b => exact absurd stated (counted b)
      | null | int i | float y | str s => cases can

include shown in
theorem additionalItems_returns (counted : ∀ b, Table.get? schema "items" ≠ some (.bool b))
    (hx : ("additionalItems", x) ∈ schema) :
    Returns (applyKeyword .draft7 scope hops onlyFirst base schema "additionalItems" x hx v) := by
  have meaning : Dialect.draft7.meaning? schema "additionalItems" =
      some (.forItems .additionalItems) := rfl
  obtain ⟨fixed, count⟩ := fixedItems?_answers usable counted
  rw [applyKeyword_forItems meaning]
  cases v with
  | arr items =>
      dsimp only
      rw [applyToItems.eq_def]
      simp only [count]
      cases fixed with
      | none => exact .nothing
      | some n =>
          have written : (items.drop n).all isWritable = true :=
            List.all_eq_true.2 fun item mem =>
              isWritable_arr_iff.1 shown item (List.mem_of_mem_drop mem)
          cases x with
          | obj members =>
              dsimp only
              rw [descendEach]
              apply Returns.collect
              intro entry listed
              exact subschemas.below onlyFirst _ none _ _
                (.additionalItems hx count (mem_drop_of_attach listed))
          | null | bool b | int i | float y | str s | arr subs =>
              exact .refuteWhen (.ok _) written (isSound_here usable hx _)
  | null | bool b | int i | float y | str s | obj members => exact .nothing

include shown in
theorem contains_returns (hx : ("contains", x) ∈ schema) :
    Returns (applyKeyword .draft7 scope hops onlyFirst base schema "contains" x hx v) := by
  have meaning : Dialect.draft7.meaning? schema "contains" = some (.forItems .contains) := rfl
  rw [applyKeyword_forItems meaning]
  cases v with
  | arr items =>
      dsimp only
      rw [applyToItems.eq_def]
      exact .refuteUnless (.existsIn fun item _ => subschemas.heldBelow _ _ (.contains hx item.2))
        (by simp [shown]) (isSound_here usable hx _)
  | null | bool b | int i | float y | str s | obj members => exact .nothing

theorem properties_returns (hx : ("properties", x) ∈ schema) :
    Returns (applyKeyword .draft7 scope hops onlyFirst base schema "properties" x hx v) := by
  have meaning : Dialect.draft7.meaning? schema "properties" = some (.forMembers .properties) := rfl
  have can := usable _ hx
  rw [applyKeyword_forMembers meaning]
  cases v with
  | obj members =>
      dsimp only
      rw [applyToMembers.eq_def]
      cases x with
      | obj subs =>
          apply Returns.collect
          intro entry declared
          split
          · exact .nothing
          · next w found =>
              exact subschemas.below onlyFirst _ _ _ w
                (.property hx declared (Table.mem_of_get? found))
      | null | bool b | int i | float y | str s | arr items => cases can
  | null | bool b | int i | float y | str s | arr items => exact .nothing

theorem patternProperties_returns (hx : ("patternProperties", x) ∈ schema) :
    Returns (applyKeyword .draft7 scope hops onlyFirst base schema "patternProperties" x hx v) := by
  have meaning : Dialect.draft7.meaning? schema "patternProperties" =
      some (.forMembers .patternProperties) := rfl
  have can := usable _ hx
  rw [applyKeyword_forMembers meaning]
  cases v with
  | obj members =>
      dsimp only
      rw [applyToMembers.eq_def]
      cases x with
      | obj subs =>
          have patterns := isPattern_of_canUse can
          apply Returns.collect
          intro entry declared
          apply Returns.collect
          intro member _
          obtain ⟨b, occurs⟩ :=
            patternOccurs_answers (patterns _ (Table.mem_keys_of_mem declared)) member.1.1
          simp only [occurs]
          cases b with
          | false => exact .nothing
          | true =>
              exact subschemas.below onlyFirst _ _ _ _ (.patterned hx declared member.2 occurs)
      | null | bool b | int i | float y | str s | arr items => cases can
  | null | bool b | int i | float y | str s | arr items => exact .nothing

omit subschemas in
theorem isAdditional_answers {patterns : String}
    (joined : patterns.isEmpty = true ∨ isPattern patterns = true) (name : String) :
    Answers (isAdditional ((Table.get? schema "properties").getD (.obj [])) patterns name) := by
  obtain ⟨declared, declares⟩ := declares_of_usable usable
  rw [isAdditional, declares, namesContain]
  cases Table.has declared name with
  | true => exact .ok false
  | false =>
      simp only
      split
      · exact .ok true
      · next nonempty =>
          exact (patternOccurs_answers (joined.resolve_left nonempty) name).map _

omit subschemas in
theorem joinedPatterns_answers : Answers (joinedPatterns schema) := by
  cases stated : Table.get? schema "patternProperties" with
  | none =>
      rw [joinedPatterns, stated]
      exact .ok _
  | some x =>
      have can := usable _ (Table.mem_of_get? stated)
      cases x with
      | obj subs =>
          rw [joinedPatterns_of_table stated]
          exact .ok _
      | null | bool b | int i | float y | str s | arr items => cases can

theorem additionalProperties_returns
    (joined : ∀ patterns, joinedPatterns schema = .ok patterns →
      patterns.isEmpty = true ∨ isPattern patterns = true)
    (hx : ("additionalProperties", x) ∈ schema) :
    Returns
      (applyKeyword .draft7 scope hops onlyFirst base schema "additionalProperties" x hx v) := by
  have meaning : Dialect.draft7.meaning? schema "additionalProperties" =
      some (.forMembers .additionalProperties) := rfl
  obtain ⟨patterns, read⟩ := joinedPatterns_answers usable
  rw [applyKeyword_forMembers meaning]
  cases v with
  | obj members =>
      obtain ⟨extras, found⟩ : Answers (additionalMembers schema members) := by
        rw [additionalMembers, read]
        exact .keepIf fun entry _ => isAdditional_answers usable (joined patterns read) entry.1.1
      have refused (x : Json) (hx : ("additionalProperties", x) ∈ schema) (v : Json) :
          Returns (if x.isVoid && !extras.isEmpty then
            .ok [Violation.here schema "additionalProperties" x v
              "Additional properties are not allowed"] else .ok []) := by
        split
        · exact .one (isSound_here usable hx _)
        · exact .nothing
      dsimp only
      rw [applyToMembers.eq_def]
      simp only [found]
      cases x with
      | obj keywords =>
          apply Returns.collect
          intro member listed
          rw [additionalMembers, read] at found
          have undeclared := (namesContain_of_isAdditional (mem_keepIf found listed).2).1
          exact subschemas.below onlyFirst _ none _ _ (.additional hx member.2 undeclared)
      | null | bool b | int i | float y | str s | arr subs => exact refused _ hx _
  | null | bool b | int i | float y | str s | arr items => exact .nothing

omit usable in
theorem propertyNames_returns (hx : ("propertyNames", x) ∈ schema) :
    Returns (applyKeyword .draft7 scope hops onlyFirst base schema "propertyNames" x hx v) := by
  have meaning : Dialect.draft7.meaning? schema "propertyNames" =
      some (.forMembers .propertyNames) := rfl
  rw [applyKeyword_forMembers meaning]
  cases v with
  | obj members =>
      dsimp only
      rw [applyToMembers.eq_def]
      apply Returns.collect
      intro member _
      exact subschemas.below onlyFirst none none x _ (.name hx (Table.mem_keys_of_mem member.2))
  | null | bool b | int i | float y | str s | arr items => exact .nothing

theorem dependencies_returns (hx : ("dependencies", x) ∈ schema) :
    Returns (applyKeyword .draft7 scope hops onlyFirst base schema "dependencies" x hx v) := by
  have meaning : Dialect.draft7.meaning? schema "dependencies" =
      some (.forMembers .dependencies) := rfl
  have can := usable _ hx
  rw [applyKeyword_forMembers meaning]
  cases v with
  | obj members =>
      dsimp only
      rw [applyToMembers.eq_def]
      cases x with
      | obj subs =>
          have each : ∀ entry ∈ subs, (entry.2.items?.isNone || isTextList entry.2) = true :=
            List.all_eq_true.1 can
          apply Returns.collect
          intro entry _
          split
          · split
            · next names same =>
                have texts := each _ entry.2
                rw [same] at texts
                exact .messages (missingMessages_answers texts onlyFirst _ members)
                  (isSound_here usable hx)
            · next isSchema =>
                refine subschemas.here onlyFirst none _ _ (.dependency hx entry.2 ?_)
                cases same : entry.1.2 with
                | arr names => exact absurd same (isSchema names)
                | null | bool b | int i | float y | str s | obj members => rfl
          · exact .nothing
      | null | bool b | int i | float y | str s | arr items => cases can
  | null | bool b | int i | float y | str s | arr items => exact .nothing

include stated shown in
theorem applicator_returns (counted : ∀ b, Table.has schema "additionalItems" = true →
      Table.get? schema "items" ≠ some (.bool b))
    (joined : ∀ patterns, Table.has schema "additionalProperties" = true →
      joinedPatterns schema = .ok patterns → patterns.isEmpty = true ∨ isPattern patterns = true)
    (known : keyword ∈ applicators) (hx : (keyword, x) ∈ schema) :
    Returns (applyKeyword .draft7 scope hops onlyFirst base schema keyword x hx v) := by
  have has : Table.has schema keyword = true :=
    (Table.has_iff_mem_keys schema keyword).2 (Table.mem_keys_of_mem hx)
  simp only [applicators, List.mem_cons, List.not_mem_nil, or_false] at known
  rcases known with rfl | rfl | rfl | rfl | rfl | rfl | rfl | rfl | rfl | rfl | rfl | rfl | rfl
  · exact allOf_returns usable subschemas hx
  · exact anyOf_returns usable shown subschemas hx
  · exact oneOf_returns usable stated shown subschemas hx
  · exact not_returns usable stated shown subschemas hx
  · exact if_returns subschemas hx
  · exact items_returns subschemas hx
  · exact additionalItems_returns usable shown subschemas (counted · has) hx
  · exact contains_returns usable shown subschemas hx
  · exact properties_returns usable subschemas hx
  · exact patternProperties_returns usable subschemas hx
  · exact additionalProperties_returns usable subschemas (joined · has) hx
  · exact propertyNames_returns subschemas hx
  · exact dependencies_returns usable subschemas hx

end Keywords

/-! ## Schemas -/

section Schemas

variable {root whole : Json} {address : String}

/-- A schema under a keyword of another one is not the document. -/
theorem ne_root_of_under {keywords : List (String × Json)} {sub : Json}
    (part : IsPart (.obj keywords) root) (under : ∃ entry ∈ keywords, IsPart sub entry.2) :
    sub ≠ root := by
  rintro rfl
  obtain ⟨entry, listed, below⟩ := under
  have lt := Json.weight_lt_weightMembers listed
  have le := below.weight_le
  have most := part.weight_le
  rw [Json.weight] at most
  omega

/-- A value for a well-formed document that does not make its evaluation fail. -/
structure IsManageable (root whole : Json) : Prop where
  wellFormed : IsWellFormed root
  tame : IsTame root
  moderate : IsModerate root whole

/-- Inside a schema under a keyword, references are read from where they are read around it. -/
theorem IsManageable.opens (manageable : IsManageable root whole)
    {keywords inner : List (String × Json)} {base : String} (stands : Stands root (.obj inner))
    (part : IsPart (.obj keywords) root) (under : ∃ entry ∈ keywords, IsPart (.obj inner) entry.2)
    (reads : ReadsFrom address base (.obj keywords)) :
    ∃ inside, baseInside base (.obj inner) = .ok inside ∧ ReadsFrom address inside (.obj inner) := by
  obtain ⟨own, read⟩ := manageable.wellFormed.addressed _ stands
  rw [baseInside, read]
  cases own with
  | none =>
      obtain ⟨entry, listed, below⟩ := under
      exact ⟨base, rfl, reads.of_isPart (below.trans (.of_member listed))⟩
  | some own =>
      have lacks := manageable.tame.enclosed inner own stands (ne_root_of_under part under) read
      exact ⟨_, rfl, .inr lacks⟩

mutual
theorem descend_returns (manageable : IsManageable root whole) {hops : Nat} {onlyFirst : Bool}
    {base : String} {step schemaStep : Option Step} {schema v : Json} (met : Meets root whole schema v)
    (follow : MayFollow root hops schema) (opens : ∀ keywords, schema = .obj keywords →
      ∃ inside, baseInside base schema = .ok inside ∧ ReadsFrom address inside schema) :
    Returns (descend .draft7 ⟨root, address⟩ hops onlyFirst base step schemaStep schema v) := by
  have sound := manageable.wellFormed.sound schema met.stands
  cases kind : schema with
  | null | int i | float x | str s | arr items =>
      rw [kind] at sound
      exact absurd sound id
  | bool b =>
      rw [descend.eq_def]
      cases b with
      | true => exact .nothing
      | false =>
          exact .showing (by simp [met.value.isWritable manageable.moderate.shown]) ⟨nofun, nofun⟩
  | obj keywords =>
      have lighter : Json.weightMembers keywords < schema.weight := by
        rw [kind, Json.weight]
        omega
      obtain ⟨inside, opened, reads⟩ := opens keywords kind
      rw [kind] at met follow opened reads
      rw [descend_native opened (manageable.wellFormed.native _ met.stands)]
      exact (applyAll_returns manageable met follow reads).under step schemaStep
termination_by (v.weight, hops, schema.weight, 0)
decreasing_by
  all_goals simp only [Prod.lex_def, true_and]
  all_goals omega

theorem satisfies_answers (manageable : IsManageable root whole) {hops : Nat} {base : String}
    {schema v : Json} (met : Meets root whole schema v) (follow : MayFollow root hops schema)
    (reads : ReadsFrom address base schema) :
    Answers (satisfies .draft7 ⟨root, address⟩ hops base schema v) := by
  have sound := manageable.wellFormed.sound schema met.stands
  cases kind : schema with
  | null | int i | float x | str s | arr items =>
      rw [kind] at sound
      exact absurd sound id
  | bool b =>
      have written : [v].all isWritable = true := by
        simp [met.value.isWritable manageable.moderate.shown]
      rw [satisfies.eq_def]
      cases b with
      | true => exact .ok true
      | false => exact (showing_answers written).map _
  | obj keywords =>
      have lighter : Json.weightMembers keywords < schema.weight := by
        rw [kind, Json.weight]
        omega
      rw [kind] at met follow reads
      rw [satisfies_native (manageable.wellFormed.native _ met.stands)]
      exact (applyAll_returns manageable met follow reads).answers.map _
termination_by (v.weight, hops, schema.weight, 0)
decreasing_by
  all_goals simp only [Prod.lex_def, true_and]
  all_goals omega

theorem applyAll_returns (manageable : IsManageable root whole) {hops : Nat} {onlyFirst : Bool}
    {base : String} {keywords : List (String × Json)} {v : Json}
    (met : Meets root whole (.obj keywords) v) (follow : MayFollow root hops (.obj keywords))
    (reads : ReadsFrom address base (.obj keywords)) :
    Returns (applyAll .draft7 .draft7 ⟨root, address⟩ hops onlyFirst base keywords v) := by
  rw [applyAll]
  apply Returns.collect
  intro entry _
  have answered : Returns (applyKeyword .draft7 ⟨root, address⟩ hops onlyFirst base keywords entry.1.1
      entry.1.2 (Dialect.mem_of_mem_countingKeywords entry.2) v) :=
    applyKeyword_returns manageable met follow reads entry.2
  split
  · obtain ⟨found, done, sound⟩ := answered
    rw [done]
    exact ⟨found, rfl, sound⟩
  · exact answered.under none _
termination_by (v.weight, hops, Json.weightMembers keywords, 1)
decreasing_by
  all_goals simp only [Prod.lex_def, true_and]
  all_goals omega

theorem applyKeyword_returns (manageable : IsManageable root whole) {hops : Nat} {onlyFirst : Bool}
    {base : String} {keywords : List (String × Json)} {keyword : String} {x v : Json}
    (met : Meets root whole (.obj keywords) v) (follow : MayFollow root hops (.obj keywords))
    (reads : ReadsFrom address base (.obj keywords))
    (active : (keyword, x) ∈ activeKeywords keywords) :
    Returns (applyKeyword .draft7 ⟨root, address⟩ hops onlyFirst base keywords keyword x
      (mem_of_mem_activeKeywords active) v) := by
  have sound := manageable.wellFormed.sound _ met.stands
  have part := met.isPartOrText.part
  have shown := met.value.isWritable manageable.moderate.shown
  have hx := mem_of_mem_activeKeywords active
  cases stated : Table.get? keywords "$ref" with
  | none =>
      have usable := sound.usable stated
      cases known : Assertion.ofKeyword? keyword with
      | some assertion =>
          exact assertion_returns usable (part.isWritable manageable.moderate.stated) shown known hx
            (manageable.moderate.copes keywords v keyword x assertion met stated hx known)
      | none =>
          have noReference : keyword ≠ "$ref" := by
            rintro rfl
            exact Table.get?_eq_none_iff.1 stated (Table.mem_keys_of_mem hx)
          by_cases isApplicator : keyword ∈ applicators
          · have inherits {sub : Json} (under : ∃ entry ∈ keywords, IsPart sub entry.2) :
                ReadsFrom address base sub := by
              obtain ⟨entry, listed, below⟩ := under
              exact reads.of_isPart (below.trans (.of_member listed))
            refine applicator_returns usable (part.isWritable manageable.moderate.stated) shown
              ⟨?_, ?_, ?_, ?_⟩
              (fun b => manageable.tame.counted keywords b met.stands)
              (fun patterns => manageable.tame.joined keywords patterns met.stands) isApplicator hx
            · intro onlyFirst step schemaStep sub applies
              have lighter := applies.weight_lt
              have further := met.beside stated applies
              refine descend_returns manageable further (follow.beside stated applies) ?_
              rintro inner rfl
              exact manageable.opens further.stands part applies.under reads
            · intro sub applies
              have lighter := applies.weight_lt
              exact satisfies_answers manageable (met.beside stated applies)
                (follow.beside stated applies) (inherits applies.under)
            · intro onlyFirst step schemaStep sub piece applies
              have lighter := applies.weight_lt
              have further := met.inside stated applies
              refine descend_returns manageable further (.start address sub) ?_
              rintro inner rfl
              exact manageable.opens further.stands part applies.under reads
            · intro sub piece applies
              have lighter := applies.weight_lt
              exact satisfies_answers manageable (met.inside stated applies) (.start address sub)
                (inherits applies.under)
          · rw [applyKeyword_unknown (meaning?_eq_none known noReference isApplicator)]
            exact .nothing
  | some ref =>
      obtain ⟨ref, target, rfl, leads⟩ := sound.leads stated
      have only : activeKeywords keywords = [("$ref", .str ref)] := by
        rw [activeKeywords, stated]
      rw [only] at active
      obtain ⟨rfl, rfl⟩ := Prod.mk.inj (List.mem_singleton.1 active)
      have further := met.target stated leads
      obtain ⟨fewer, rfl, follow⟩ :=
        follow.follow part stated leads (manageable.wellFormed.acyclic target further.stands)
      have soundTarget := manageable.wellFormed.sound target further.stands
      have meaning : Dialect.draft7.meaning? keywords "$ref" = some .reference := rfl
      have native := manageable.wellFormed.native target further.stands
      obtain ⟨inside, found, within⟩ := leads.2 address
      rw [reads.base_eq stated, applyKeyword_reference meaning]
      cases target with
      | bool b =>
          rw [Schema.follow.eq_def]
          simp only [found]
          exact descend_returns manageable further follow nofun
      | obj members =>
          rw [follow_native found native]
          exact applyAll_returns manageable further follow within
      | null | int i | float x | str s | arr items => exact absurd soundTarget id
termination_by (v.weight, hops, Json.weightMembers keywords, 0)
decreasing_by
  all_goals simp only [Prod.lex_def, true_and]
  all_goals omega
end

end Schemas

end RouteContract.Schema
