import RouteContract.Proofs.Data.Result
import RouteContract.Proofs.Data.Table
import RouteContract.Proofs.Json.Place
import RouteContract.Schema.Evaluation

/-!
# How keywords are applied

A keyword of a schema is applied by its meaning in a dialect, and there is one equation for each kind
of meaning. What is shown in a message must have a text, so a single finding is made only of values
that can be written (`refuteWhen_eq_ok_iff`). A document no part of which names another dialect is
read in `Dialect.draft7` throughout (`KeepsDialect`).
-/

set_option autoImplicit false

namespace RouteContract.Schema

open RouteContract

/-! ## Single findings -/

section Findings

variable {α β : Type} {shown : List Json} {finding : α} {found : List α} {verdict : Except Fault Bool}

theorem showing_eq_ok_iff :
    showing shown finding = .ok found ↔
      shown.all Json.isWritable = true ∧ found = [finding] := by
  rw [showing]
  split
  · next writable => simp [writable, eq_comm]
  · next unwritable => simp [unwritable]

theorem refuteWhen_eq_ok_iff :
    refuteWhen verdict shown finding = .ok found ↔
      verdict = .ok false ∧ found = [] ∨
        verdict = .ok true ∧ shown.all Json.isWritable = true ∧ found = [finding] := by
  rcases verdict with e | ⟨_ | _⟩
  · simp [refuteWhen]
  · simp [refuteWhen]
  · simp [refuteWhen, showing_eq_ok_iff]

theorem refuteUnless_eq_ok_iff :
    refuteUnless verdict shown finding = .ok found ↔
      verdict = .ok true ∧ found = [] ∨
        verdict = .ok false ∧ shown.all Json.isWritable = true ∧ found = [finding] := by
  rw [refuteUnless, refuteWhen_eq_ok_iff]
  rcases verdict with e | ⟨_ | _⟩
  · simp [Except.map]
  · simp [Except.map]
  · simp [Except.map]

/-- What is found may be written down in another way. -/
theorem refuteWhen_map (f : α → β) :
    (refuteWhen verdict shown finding).map (·.map f) = refuteWhen verdict shown (f finding) := by
  rcases verdict with e | ⟨_ | _⟩
  · rfl
  · rfl
  · rw [refuteWhen, refuteWhen, showing, showing]
    split <;> rfl

end Findings

/-! ## Keywords by their meanings -/

section Keywords

variable {d : Dialect} {scope : Scope} {hops : Nat} {onlyFirst : Bool} {base keyword : String}
  {schema : List (String × Json)} {x v : Json}

/-- A keyword without a meaning finds nothing. -/
theorem applyKeyword_unknown (known : d.meaning? schema keyword = none)
    (hx : (keyword, x) ∈ schema) :
    applyKeyword d scope hops onlyFirst base schema keyword x hx v = .ok [] := by
  rw [applyKeyword.eq_def]
  simp only [known]

theorem applyKeyword_assertion {assertion : Assertion}
    (known : d.meaning? schema keyword = some (.assertion assertion))
    (hx : (keyword, x) ∈ schema) :
    applyKeyword d scope hops onlyFirst base schema keyword x hx v =
      (assertion.failures onlyFirst x v).map (·.map (Violation.here schema keyword x v)) := by
  rw [applyKeyword.eq_def]
  simp only [known]

theorem applyKeyword_reference {ref : String} (known : d.meaning? schema keyword = some .reference)
    (hx : (keyword, .str ref) ∈ schema) :
    applyKeyword d scope hops onlyFirst base schema keyword (.str ref) hx v =
      follow d scope hops onlyFirst base ref v := by
  rw [applyKeyword.eq_def]
  simp only [known]

/-- A reference is a text. -/
theorem applyKeyword_reference_other (known : d.meaning? schema keyword = some .reference)
    (hx : (keyword, x) ∈ schema) (other : ∀ ref, x ≠ .str ref) :
    applyKeyword d scope hops onlyFirst base schema keyword x hx v = .error .notASchema := by
  rw [applyKeyword.eq_def]
  simp only [known]
  cases x with
  | str ref => exact absurd rfl (other ref)
  | null | bool b | int i | float y | arr items | obj members => rfl

theorem applyKeyword_recursion (known : d.meaning? schema keyword = some .recursion)
    (hx : (keyword, x) ∈ schema) :
    applyKeyword d scope hops onlyFirst base schema keyword x hx v =
      follow d scope hops onlyFirst base "#" v := by
  rw [applyKeyword.eq_def]
  simp only [known]

theorem applyKeyword_beside {kind : Beside} (known : d.meaning? schema keyword = some (.beside kind))
    (hx : (keyword, x) ∈ schema) :
    applyKeyword d scope hops onlyFirst base schema keyword x hx v =
      applyBeside d scope hops onlyFirst base schema keyword x hx v kind := by
  rw [applyKeyword.eq_def]
  simp only [known]

/-- A keyword for the items of an array finds nothing in another value. -/
theorem applyKeyword_forItems {kind : ForItems}
    (known : d.meaning? schema keyword = some (.forItems kind)) (hx : (keyword, x) ∈ schema) :
    applyKeyword d scope hops onlyFirst base schema keyword x hx v =
      match v with
      | .arr items => applyToItems d scope onlyFirst base schema keyword x items kind
      | _ => .ok [] := by
  rw [applyKeyword.eq_def]
  cases v <;> simp only [known]

/-- A keyword for the members of an object finds nothing in another value. -/
theorem applyKeyword_forMembers {kind : ForMembers}
    (known : d.meaning? schema keyword = some (.forMembers kind)) (hx : (keyword, x) ∈ schema) :
    applyKeyword d scope hops onlyFirst base schema keyword x hx v =
      match v with
      | .obj members => applyToMembers d scope hops onlyFirst base schema keyword x hx members kind
      | _ => .ok [] := by
  rw [applyKeyword.eq_def]
  cases v <;> simp only [known]

/-- Additional members have one name in all dialects. -/
theorem meaning?_additionalProperties (d : Dialect) (schema : List (String × Json)) :
    d.meaning? schema "additionalProperties" = some (.forMembers .additionalProperties) := by
  cases d <;> rfl

end Keywords

/-! ## Keywords of a document -/

section Native

variable {keyword : String} {schema : List (String × Json)}

/-- The keywords of `Dialect.draft7` that apply subschemas to a value or its parts, the reference
apart. -/
def applicators : List String :=
  ["allOf", "anyOf", "oneOf", "not", "if", "items", "additionalItems", "contains", "properties",
    "patternProperties", "additionalProperties", "propertyNames", "dependencies"]

theorem meaning?_of_assertion {assertion : Assertion}
    (known : Assertion.ofKeyword? keyword = some assertion) :
    Dialect.draft7.meaning? schema keyword = some (.assertion assertion) := by
  have same : Dialect.draft7.assertion? schema keyword = some assertion := known
  rw [Dialect.meaning?, same]

theorem meaning?_eq_none (noAssertion : Assertion.ofKeyword? keyword = none)
    (noReference : keyword ≠ "$ref") (noApplicator : keyword ∉ applicators) :
    Dialect.draft7.meaning? schema keyword = none := by
  have same : Dialect.draft7.assertion? schema keyword = none := noAssertion
  rw [Dialect.meaning?, same]
  refine Table.get?_eq_none_iff.2 fun mem => ?_
  have all : Table.keys Dialect.draft7.applicators ⊆ "$ref" :: applicators := by decide
  rcases List.mem_cons.1 (all mem) with same | applicator
  · exact noReference same
  · exact noApplicator applicator

/-- No object at any depth of a document names another dialect as its own. -/
def KeepsDialect (document : Json) : Prop :=
  ∀ members, Json.IsPart (.obj members) document →
    ∀ d, Dialect.draft7.inside (.obj members) = .ok d → d = .draft7

instance (document : Json) : Decidable (KeepsDialect document) :=
  decidable_of_iff
    (document.everyObject fun members =>
      match Dialect.draft7.inside (.obj members) with
      | .ok d => d = .draft7
      | .error _ => true) <|
    Json.everyObject_iff.trans <| forall₂_congr fun members _ => by
      cases Dialect.draft7.inside (.obj members) <;> simp

/-- The parts of a document that keeps its dialect keep it. -/
theorem KeepsDialect.of_isPart {document part : Json} (keeps : KeepsDialect document)
    (below : Json.IsPart part document) : KeepsDialect part :=
  fun members inside => keeps members (inside.trans below)

variable {scope : Scope} {hops : Nat} {onlyFirst : Bool} {base inside ref : String} {v : Json}

/-- A schema that names no other dialect applies its keywords. -/
theorem descend_native (opened : baseInside base (.obj schema) = .ok inside)
    (native : Dialect.draft7.inside (.obj schema) = .ok .draft7)
    (step schemaStep : Option Pointer.Step) :
    descend .draft7 scope hops onlyFirst base step schemaStep (.obj schema) v =
      (applyAll .draft7 .draft7 scope hops onlyFirst inside schema v).map
        (·.map (·.under step schemaStep)) := by
  have opened : Dialect.draft7.baseInside base schema = .ok inside := opened
  rw [descend, opened, native]

theorem satisfies_native (native : Dialect.draft7.inside (.obj schema) = .ok .draft7) :
    satisfies .draft7 scope hops base (.obj schema) v =
      (applyAll .draft7 .draft7 scope hops true base schema v).map List.isEmpty := by
  rw [satisfies, native]

theorem follow_native (found : scope.lookup base ref = .ok (.obj schema, inside))
    (native : Dialect.draft7.inside (.obj schema) = .ok .draft7) :
    follow .draft7 scope (hops + 1) onlyFirst base ref v =
      applyAll .draft7 .draft7 scope hops onlyFirst inside schema v := by
  rw [follow, found]
  simp only [native]

/-- Keywords among which there is neither an address nor the name of a dialect. -/
def IsUnnamed (schema : List (String × Json)) : Prop :=
  Table.get? schema "$id" = none ∧ Table.get? schema "$schema" = none

namespace IsUnnamed

theorem ownAddress? (unnamed : IsUnnamed schema) : Schema.ownAddress? (.obj schema) = .ok none := by
  rw [Schema.ownAddress?, unnamed.1]

theorem native (unnamed : IsUnnamed schema) :
    Dialect.draft7.inside (.obj schema) = .ok .draft7 := by
  rw [Dialect.inside, unnamed.2]

theorem append {more : List (String × Json)} (unnamed : IsUnnamed schema)
    (unnamed' : IsUnnamed more) : IsUnnamed (schema ++ more) := by
  constructor
  · rw [Table.get?_append, unnamed.1, unnamed'.1]
    rfl
  · rw [Table.get?_append, unnamed.2, unnamed'.2]
    rfl

/-- A schema that names nothing applies its keywords at the address around it. -/
theorem descend (unnamed : IsUnnamed schema) (step schemaStep : Option Pointer.Step) :
    Schema.descend .draft7 scope hops onlyFirst base step schemaStep (.obj schema) v =
      (applyAll .draft7 .draft7 scope hops onlyFirst base schema v).map
        (·.map (·.under step schemaStep)) := by
  have opened : baseInside base (.obj schema) = .ok base := by
    rw [baseInside, unnamed.ownAddress?]
    rfl
  exact descend_native opened unnamed.native step schemaStep

end IsUnnamed

end Native

end RouteContract.Schema
