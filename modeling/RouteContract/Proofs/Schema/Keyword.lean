import RouteContract.Proofs.Json.Place
import RouteContract.Proofs.Schema.Verdict

/-!
# What keywords decide

For each keyword that compiled schemas have, what it decides about a value, given what the
subschemas below it decide about the parts of the value. The verdict on a schema is put together
from these (`decides_applyAll`), so nothing that is said about compiled schemas opens the evaluation
itself.
-/

set_option autoImplicit false

namespace RouteContract.Schema

open RouteContract Pointer

variable {scope : Scope} {hops : Nat} {base : String} {schema : List (String × Json)} {x v : Json}
  {stuck holds : Prop}

/-! ## Schemas -/

theorem activeKeywords_eq_self (plain : Table.get? schema "$ref" = none) :
    activeKeywords schema = schema := by
  rw [activeKeywords, plain]

/-- A schema all of whose keywords count decides what they decide together. -/
theorem decides_applyAll (active : activeKeywords schema = schema)
    (h : Decides stuck holds (collect false id
      (schema.pmap
        (fun entry hx => applyKeyword .draft7 scope hops false base schema entry.1 entry.2 hx v)
        fun _ hx => hx))) :
    Decides stuck holds (applyAll .draft7 .draft7 scope hops false base schema v) := by
  have active : Dialect.draft7.countingKeywords schema = schema := active
  rw [List.pmap_eq_map_attach, collect_map] at h
  rw [applyAll]
  generalize_proofs mem
  revert mem
  rw [active]
  intro mem
  refine h.collect_congr fun entry _ stuck holds found => found.map fun violations => ?_
  split
  · exact Iff.rfl
  · exact List.map_eq_nil_iff

/-- Evaluation against a schema without a reference completes when that against each keyword does. -/
theorem applyAll_plain_completes_iff {schema : List (String × Json)}
    (plain : Table.get? schema "$ref" = none) :
    (∃ found, applyAll .draft7 .draft7 scope hops false base schema v = .ok found) ↔
      ∀ keyword x (hx : (keyword, x) ∈ schema),
        ∃ found, applyKeyword .draft7 scope hops false base schema keyword x hx v = .ok found := by
  have written {r : Except Fault (List Violation)}
      {f : List Violation → List Violation} :
      (∃ found, r.map f = .ok found) ↔ ∃ found, r = .ok found := by
    cases r <;> simp [Except.map]
  have counting : Dialect.draft7.countingKeywords schema = schema := activeKeywords_eq_self plain
  rw [applyAll, collect_completes_iff]
  simp only [written, List.mem_attach, forall_const, Subtype.forall, Prod.forall, counting]

theorem decides_descend {step schemaStep : Option Step} (unnamed : IsUnnamed schema)
    (h : Decides stuck holds (applyAll .draft7 .draft7 scope hops false base schema v)) :
    Decides stuck holds
      (descend .draft7 scope hops false base step schemaStep (.obj schema) v) := by
  rw [unnamed.descend]
  exact h.map fun found => List.map_eq_nil_iff

/-! ## Keywords that look at a value by themselves -/

theorem decides_assertion {keyword : String} (assertion : Assertion)
    (known : Assertion.ofKeyword? keyword = some assertion) (hx : (keyword, x) ∈ schema)
    (h : Decides stuck holds (assertion.failures false x v)) :
    Decides stuck holds (applyKeyword .draft7 scope hops false base schema keyword x hx v) := by
  rw [applyKeyword_assertion (meaning?_of_assertion known)]
  exact h.map fun found => List.map_eq_nil_iff

/-- A type that is asked for by name. -/
theorem applyKeyword_type {name : String} {type : TypeName}
    (named : TypeName.ofText? name = some type) (hx : ("type", .str name) ∈ schema) :
    applyKeyword .draft7 scope hops false base schema "type" (.str name) hx v =
      refuteUnless (.ok (type.admits v)) [v, .str name]
        (.here schema "type" (.str name) v
          (v.display ++ " is not of type " ++ (Json.str name).display)) := by
  have some_type : isOfSomeType TypeName.admits v [.str name] = .ok (type.admits v) := by
    rw [isOfSomeType]
    simp only [named]
    cases type.admits v <;> rfl
  have meaning : Assertion.ofKeyword? "type" = some .type := rfl
  rw [applyKeyword_assertion (meaning?_of_assertion meaning), Assertion.failures, typeFailures,
    typeNames]
  simp only [some_type]
  exact refuteWhen_map _

/-- A list of values. -/
theorem applyKeyword_enum {values : List Json} (hx : ("enum", .arr values) ∈ schema) :
    applyKeyword .draft7 scope hops false base schema "enum" (.arr values) hx v =
      refuteUnless (.ok (values.any fun value => Json.equal value v)) [v, .arr values]
        (.here schema "enum" (.arr values) v
          (v.display ++ " is not one of " ++ (Json.arr values).display)) := by
  have meaning : Assertion.ofKeyword? "enum" = some .enumeration := rfl
  rw [applyKeyword_assertion (meaning?_of_assertion meaning), Assertion.failures, elements]
  exact refuteWhen_map _

theorem decides_type {name : String} {type : TypeName} (named : TypeName.ofText? name = some type)
    (hx : ("type", .str name) ∈ schema) :
    Decides (type.admits v = false ∧ v.isWritable = false) (type.admits v = true)
      (applyKeyword .draft7 scope hops false base schema "type" (.str name) hx v) := by
  rw [applyKeyword_type named]
  refine (decides_refuteUnless ..).congr (and_congr_right fun _ => ?_) fun _ => Iff.rfl
  simp [Json.isWritable]

theorem decides_enum {values : List Json} (hx : ("enum", .arr values) ∈ schema) :
    Decides
      ((¬ ∃ value ∈ values, Json.equal value v = true) ∧
        (v.isWritable && (Json.arr values).isWritable) = false)
      (∃ value ∈ values, Json.equal value v = true)
      (applyKeyword .draft7 scope hops false base schema "enum" (.arr values) hx v) := by
  rw [applyKeyword_enum]
  refine (decides_refuteUnless ..).congr ?_ fun _ => List.any_eq_true
  rw [← List.any_eq_true, Bool.not_eq_true]
  simp

/-- The messages of a list of names are about those that the object lacks. -/
theorem missingMessages_names {words : String} {members : List (String × Json)}
    {names : List String} :
    missingMessages false words members (names.map .str) =
      .ok ((names.filter fun name => !Table.has members name).map fun name =>
        (Json.str name).display ++ words) := by
  induction names with
  | nil => rfl
  | cons name rest ih =>
      rw [List.map_cons, missingMessages, isMissing]
      cases present : Table.has members name with
      | true =>
          rw [List.filter_cons_of_neg (by simp [present])]
          exact ih
      | false =>
          have shown : showing [.str name] ((Json.str name).display ++ words) =
              .ok [(Json.str name).display ++ words] := rfl
          rw [List.filter_cons_of_pos (by simp [present])]
          simp only [Bool.not_false, shown, Bool.false_eq_true, if_false, ih]
          rfl

theorem decides_required {names : List String} (hx : ("required", .arr (names.map .str)) ∈ schema) :
    Decides False
      (∀ members, v = .obj members → ∀ name ∈ names, Table.has members name = true)
      (applyKeyword .draft7 scope hops false base schema "required" (.arr (names.map .str)) hx v) := by
  refine decides_assertion .required rfl hx ?_
  cases v with
  | obj members =>
      rw [Assertion.failures, elements]
      simp only [missingMessages_names]
      exact .of_ok not_false (by simp [List.filter_eq_nil_iff])
  | null | bool b | int i | float y | str s | arr items => exact .of_ok not_false (by simp)

/-! ## Keywords for the items of an array -/

section Items

/-- A keyword for the items of an array finds nothing in another value. -/
theorem decides_items_other (hx : ("items", x) ∈ schema) (other : ∀ items, v ≠ .arr items) :
    Decides False True (applyKeyword .draft7 scope hops false base schema "items" x hx v) := by
  have meaning : Dialect.draft7.meaning? schema "items" = some (.forItems .items) := rfl
  rw [applyKeyword_forItems meaning]
  cases v with
  | arr items => exact absurd rfl (other items)
  | null | bool b | int i | float y | str s | obj members => exact .of_ok not_false (by simp)

/-- One schema for all items. -/
theorem applyKeyword_items {items : List Json} (single : ∀ subs, x ≠ .arr subs)
    (hx : ("items", x) ∈ schema) :
    applyKeyword .draft7 scope hops false base schema "items" x hx (.arr items) =
      collect false
        (fun entry => descend .draft7 scope scope.chainLimit false base (some (.index entry.2)) none
          x entry.1)
        items.zipIdx := by
  have meaning : Dialect.draft7.meaning? schema "items" = some (.forItems .items) := rfl
  have whole : descendEach .draft7 scope false base x 0 items = _ := descendEach.eq_def ..
  rw [List.drop_zero, collect_attach_zipIdx fun item i =>
    descend .draft7 scope scope.chainLimit false base (some (.index i)) none x item] at whole
  rw [← whole, applyKeyword_forItems meaning]
  dsimp only
  rw [applyToItems.eq_def]
  cases x with
  | arr subs => exact absurd rfl (single subs)
  | null | bool b | int i | float y | str s | obj members => rfl

/-- A schema for each of the first items. -/
theorem applyKeyword_items_each {subs items : List Json} (hx : ("items", .arr subs) ∈ schema) :
    applyKeyword .draft7 scope hops false base schema "items" (.arr subs) hx (.arr items) =
      collect false
        (fun entry => descend .draft7 scope scope.chainLimit false base (some (.index entry.2))
          (some (.index entry.2)) entry.1.2 entry.1.1)
        (items.zip subs).zipIdx := by
  have meaning : Dialect.draft7.meaning? schema "items" = some (.forItems .items) := rfl
  rw [applyKeyword_forItems meaning]
  dsimp only
  rw [applyToItems.eq_def]
  dsimp only
  rw [descendInTurn]
  exact collect_attach_zip_zipIdx (fun (pair : Json × Json) i => descend .draft7 scope
    scope.chainLimit false base (some (.index i)) (some (.index i)) pair.2 pair.1) items subs

theorem decides_items {sub : List (String × Json)} {items : List Json} (stuck holds : Json → Prop)
    (hx : ("items", .obj sub) ∈ schema)
    (each : ∀ (i : Nat) (item : Json), items[i]? = some item →
      Decides (stuck item) (holds item)
        (descend .draft7 scope scope.chainLimit false base (some (.index i)) none (.obj sub) item)) :
    Decides (∃ item ∈ items, stuck item) (∀ item ∈ items, holds item)
      (applyKeyword .draft7 scope hops false base schema "items" (.obj sub) hx (.arr items)) := by
  rw [applyKeyword_items (by simp)]
  refine (decides_collect_zipIdx _ (fun _ => stuck) (fun _ => holds) each).congr ?_ fun _ => ?_
  · simp only [List.mem_iff_getElem?, ← exists_and_right]
    exact exists_comm
  · simp only [List.mem_iff_getElem?, forall_exists_index]
    exact forall_comm

theorem decides_items_each {subs items : List Json} (stuck holds : Nat → Json → Json → Prop)
    (hx : ("items", .arr subs) ∈ schema)
    (each : ∀ (i : Nat) (item sub : Json), items[i]? = some item → subs[i]? = some sub →
      Decides (stuck i item sub) (holds i item sub)
        (descend .draft7 scope scope.chainLimit false base (some (.index i)) (some (.index i)) sub
          item)) :
    Decides
      (∃ (i : Nat) (item sub : Json), items[i]? = some item ∧ subs[i]? = some sub ∧
        stuck i item sub)
      (∀ (i : Nat) (item sub : Json), items[i]? = some item → subs[i]? = some sub →
        holds i item sub)
      (applyKeyword .draft7 scope hops false base schema "items" (.arr subs) hx (.arr items)) := by
  have walk := decides_collect_zipIdx
    (fun (pair : Json × Json) i => descend .draft7 scope scope.chainLimit false base (some (.index i))
      (some (.index i)) pair.2 pair.1) (fun i pair => stuck i pair.1 pair.2)
    (fun i pair => holds i pair.1 pair.2)
    fun i pair (found : (items.zip subs)[i]? = some pair) => by
      rw [List.getElem?_zip_eq_some] at found
      exact each i pair.1 pair.2 found.1 found.2
  rw [applyKeyword_items_each]
  refine walk.congr ?_ fun _ => ?_
  · simp only [Prod.exists, List.getElem?_zip_eq_some, and_assoc]
  · simp only [Prod.forall, List.getElem?_zip_eq_some, and_imp]

end Items

/-! ## Keywords for the members of an object -/

section Members

variable {keyword : String}

/-- Keywords that concern the members of an object. -/
def memberKeywords : List String := ["properties", "additionalProperties"]

/-- A keyword for the members of an object finds nothing in another value. -/
theorem decides_members_other (known : keyword ∈ memberKeywords) (hx : (keyword, x) ∈ schema)
    (other : ∀ members, v ≠ .obj members) :
    Decides False True (applyKeyword .draft7 scope hops false base schema keyword x hx v) := by
  have meaning : ∃ kind, Dialect.draft7.meaning? schema keyword = some (.forMembers kind) := by
    simp only [memberKeywords, List.mem_cons, List.not_mem_nil, or_false] at known
    rcases known with rfl | rfl
    · exact ⟨.properties, rfl⟩
    · exact ⟨.additionalProperties, rfl⟩
  obtain ⟨kind, meaning⟩ := meaning
  rw [applyKeyword_forMembers meaning]
  cases v with
  | obj members => exact absurd rfl (other members)
  | null | bool b | int i | float y | str s | arr items => exact .of_ok not_false (by simp)

variable {members : List (String × Json)}

/-- The schemas of the declared members. -/
theorem applyKeyword_properties {subs : Table Json} (hx : ("properties", .obj subs) ∈ schema) :
    applyKeyword .draft7 scope hops false base schema "properties" (.obj subs) hx (.obj members) =
      collect false
        (fun entry =>
          match Table.get? members entry.1 with
          | none => .ok []
          | some w => descend .draft7 scope scope.chainLimit false base (some (.key entry.1))
              (some (.key entry.1)) entry.2 w)
        subs := by
  have meaning : Dialect.draft7.meaning? schema "properties" = some (.forMembers .properties) := rfl
  rw [applyKeyword_forMembers meaning]
  dsimp only
  rw [applyToMembers.eq_def]
  dsimp only
  congr 1
  funext entry
  split
  · next absent => simp only [absent]
  · next w present => simp only [present]

theorem decides_properties {subs : Table Json} (stuck holds : String × Json → Json → Prop)
    (hx : ("properties", .obj subs) ∈ schema)
    (each : ∀ entry ∈ subs, ∀ w, Table.get? members entry.1 = some w →
      Decides (stuck entry w) (holds entry w)
        (descend .draft7 scope scope.chainLimit false base (some (.key entry.1)) (some (.key entry.1))
          entry.2 w)) :
    Decides (∃ entry ∈ subs, ∃ w, Table.get? members entry.1 = some w ∧ stuck entry w)
      (∀ entry ∈ subs, ∀ w, Table.get? members entry.1 = some w → holds entry w)
      (applyKeyword .draft7 scope hops false base schema "properties" (.obj subs) hx
        (.obj members)) := by
  rw [applyKeyword_properties]
  refine decides_collect fun entry declared => ?_
  split
  · next absent => exact .of_ok (by simp [absent]) (by simp [absent])
  · next w found =>
      refine (each entry declared w found).congr ?_ fun _ => ?_
      · simp [found]
      · simp [found]

/-- One schema for the members that are additional. A schema that refuses everything refuses them
together. -/
theorem applyKeyword_additional {extras : List { member // member ∈ members }}
    (kept : additionalMembers schema members = .ok extras)
    (hx : ("additionalProperties", x) ∈ schema) :
    applyKeyword .draft7 scope hops false base schema "additionalProperties" x hx (.obj members) =
      match x with
      | .obj sub =>
          collect false
            (fun member => descend .draft7 scope scope.chainLimit false base
              (some (.key member.1.1)) none (.obj sub) member.1.2)
            extras
      | _ =>
          if x.isVoid && !extras.isEmpty then
            .ok [.here schema "additionalProperties" x (.obj members)
              "Additional properties are not allowed"]
          else .ok [] := by
  rw [applyKeyword_forMembers (meaning?_additionalProperties .draft7 schema)]
  dsimp only
  rw [applyToMembers.eq_def]
  dsimp only
  rw [kept]
  cases x <;> rfl

/-- Where the additional members are looked at, they are known. -/
theorem exists_additional {found : List Violation} {hx : ("additionalProperties", x) ∈ schema}
    (done : applyKeyword .draft7 scope hops false base schema "additionalProperties" x hx
      (.obj members) = .ok found) :
    ∃ extras, additionalMembers schema members = .ok extras := by
  rw [applyKeyword_forMembers (meaning?_additionalProperties .draft7 schema)] at done
  dsimp only at done
  rw [applyToMembers.eq_def] at done
  dsimp only at done
  cases kept : additionalMembers schema members with
  | error e =>
      rw [kept] at done
      cases done
  | ok extras => exact ⟨extras, rfl⟩

/-- The members that are not in a table of declared ones. -/
def undeclared (declared : Table Json) (members : List (String × Json)) : List (String × Json) :=
  members.filter fun entry => !Table.has declared entry.1

theorem keepIf_ok {α : Type} (p : α → Bool) (xs : List α) :
    keepIf (fun x => .ok (p x)) xs = .ok (xs.filter p) := by
  induction xs with
  | nil => rfl
  | cons x rest ih =>
      rw [keepIf]
      simp only [ih, Except.map]
      cases kept : p x with
      | true => rw [List.filter_cons_of_pos kept, if_pos rfl]
      | false => rw [List.filter_cons_of_neg (by simp [kept]), if_neg Bool.false_ne_true]

/-- Without patterns, the additional members are those that the schema does not declare. -/
theorem additionalMembers_eq (members : List (String × Json)) {declared : Table Json}
    (noPatterns : Table.get? schema "patternProperties" = none)
    (declares : (Table.get? schema "properties").getD (.obj []) = .obj declared) :
    ∃ extras, additionalMembers schema members = .ok extras ∧
      extras.map Subtype.val = undeclared declared members := by
  have joined : joinedPatterns schema = .ok "" := by
    rw [joinedPatterns, noPatterns]
    rfl
  have test (name : String) :
      isAdditional (.obj declared) "" name = .ok (!Table.has declared name) := by
    rw [isAdditional, namesContain]
    cases Table.has declared name <;> rfl
  refine ⟨members.attach.filter fun entry => !Table.has declared entry.1.1, ?_, ?_⟩
  · rw [additionalMembers, joined, declares]
    simp only [test]
    exact keepIf_ok _ _
  · conv_rhs => rw [undeclared, ← List.attach_map_subtype_val members, List.filter_map]
    rfl

/-- No undeclared members are allowed. -/
theorem decides_additional_closed {declared : Table Json}
    (noPatterns : Table.get? schema "patternProperties" = none)
    (declares : (Table.get? schema "properties").getD (.obj []) = .obj declared)
    (hx : ("additionalProperties", .bool false) ∈ schema) :
    Decides False (undeclared declared members = [])
      (applyKeyword .draft7 scope hops false base schema "additionalProperties" (.bool false) hx
        (.obj members)) := by
  obtain ⟨extras, kept, same⟩ := additionalMembers_eq members noPatterns declares
  rw [applyKeyword_additional kept, ← same]
  cases extras with
  | nil => exact .of_ok not_false (by simp)
  | cons extra more => exact .of_ok not_false (by simp)

/-- One schema for all undeclared members. -/
theorem decides_additional {declared : Table Json} {sub : List (String × Json)}
    (stuck holds : String × Json → Prop)
    (noPatterns : Table.get? schema "patternProperties" = none)
    (declares : (Table.get? schema "properties").getD (.obj []) = .obj declared)
    (hx : ("additionalProperties", .obj sub) ∈ schema)
    (each : ∀ entry ∈ undeclared declared members,
      Decides (stuck entry) (holds entry)
        (descend .draft7 scope scope.chainLimit false base (some (.key entry.1)) none (.obj sub)
          entry.2)) :
    Decides (∃ entry ∈ undeclared declared members, stuck entry)
      (∀ entry ∈ undeclared declared members, holds entry)
      (applyKeyword .draft7 scope hops false base schema "additionalProperties" (.obj sub) hx
        (.obj members)) := by
  obtain ⟨extras, kept, same⟩ := additionalMembers_eq members noPatterns declares
  have walk := decides_collect each
  rw [← same, collect_map] at walk
  rw [applyKeyword_additional kept, ← same]
  exact walk

end Members

/-! ## Unions -/

theorem applyKeyword_anyOf {subs : List Json} (hx : ("anyOf", .arr subs) ∈ schema) :
    applyKeyword .draft7 scope hops false base schema "anyOf" (.arr subs) hx v =
      refuteUnless
        ((firstClean (fun sub => descend .draft7 scope hops false base none none sub v) subs).map
          Option.isSome)
        [v] (.here schema "anyOf" (.arr subs) v
          (v.display ++ " is not valid under any of the given schemas")) := by
  have meaning : Dialect.draft7.meaning? schema "anyOf" = some (.beside .anyOf) := rfl
  rw [applyKeyword_beside meaning, applyBeside.eq_def]
  dsimp only
  have verdict := firstClean_map (fun sub => descend .draft7 scope hops false base none none sub v)
    Subtype.val subs.attach id
  rw [List.attach_map_subtype_val] at verdict
  exact congrArg (fun found => refuteUnless found [v] _) verdict.symm

/-- One of several schemas. -/
theorem decides_anyOf {subs : List Json} (stuck holds : Nat → Prop)
    (hx : ("anyOf", .arr subs) ∈ schema)
    (each : ∀ (i : Nat) (sub : Json), subs[i]? = some sub →
      Decides (stuck i) (holds i) (descend .draft7 scope hops false base none none sub v)) :
    Decides
      ((∃ i < subs.length, stuck i ∧ ∀ j < i, ¬ holds j) ∨
        (¬ ∃ i < subs.length, holds i) ∧ v.isWritable = false)
      (∃ i < subs.length, holds i)
      (applyKeyword .draft7 scope hops false base schema "anyOf" (.arr subs) hx v) := by
  rw [applyKeyword_anyOf]
  exact (decides_firstClean each [v] _).congr (by simp) fun _ => Iff.rfl

/-! ## References -/

section References

variable {ref : String}

theorem activeKeywords_reference :
    activeKeywords [("$ref", .str ref)] = [("$ref", .str ref)] := by
  simp [activeKeywords, Table.get?]

theorem decides_applyAll_reference
    (h : ∀ hx, Decides stuck holds
      (applyKeyword .draft7 scope hops false base [("$ref", .str ref)] "$ref" (.str ref) hx v)) :
    Decides stuck holds (applyAll .draft7 .draft7 scope hops false base [("$ref", .str ref)] v) := by
  refine decides_applyAll activeKeywords_reference ?_
  refine (decides_collect_cons (h (List.mem_singleton_self _)) decides_collect_nil).congr ?_
    fun _ => ?_
  · rw [or_false]
  · rw [and_true]

/-- A schema that is a reference decides what the schema decides that it leads to. -/
theorem decides_reference {target : List (String × Json)} {inside : String}
    (found : scope.lookup base ref = .ok (.obj target, inside))
    (native : Dialect.draft7.inside (.obj target) = .ok .draft7)
    (h : Decides stuck holds (applyAll .draft7 .draft7 scope hops false inside target v)) :
    Decides stuck holds
      (applyAll .draft7 .draft7 scope (hops + 1) false base [("$ref", .str ref)] v) := by
  refine decides_applyAll_reference fun hx => ?_
  have meaning : Dialect.draft7.meaning? [("$ref", .str ref)] "$ref" = some .reference := rfl
  rw [applyKeyword_reference meaning, follow_native found native]
  exact h

/-- A schema that is a reference which cannot be looked up has a fault. -/
theorem decides_reference_fault {fault : Fault} (failed : scope.lookup base ref = .error fault)
    (isStuck : stuck) :
    Decides stuck holds
      (applyAll .draft7 .draft7 scope (hops + 1) false base [("$ref", .str ref)] v) := by
  refine decides_applyAll_reference fun hx => ?_
  have meaning : Dialect.draft7.meaning? [("$ref", .str ref)] "$ref" = some .reference := rfl
  rw [applyKeyword_reference meaning, follow, failed]
  exact .of_error isStuck

end References

end RouteContract.Schema
