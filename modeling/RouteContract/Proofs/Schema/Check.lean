import Mathlib
import RouteContract.Proofs.Schema.Overreach

/-!
# What a checker hands on

A checker hands on the coerced value. What it hands on it would hand on again, with the same report
(`check_settles`). A value that has no violations to begin with is handed on as it is where the
schema has no patterns, its references stay inside, and no part of it names another dialect
(`check_spares`). Coercion knows of no dialects, so it changes valid values where a dialect has other
keywords (`grid_changes`).

Patterns make a difference, because coercion does not ask them: it takes every undeclared member to
the schema for additional members. A value without violations is handed on as it is exactly when
that changes none of the members that a pattern provides for (`check_patterned`).
-/

set_option autoImplicit false

namespace RouteContract.Schema

open RouteContract Json

/-! ## Checking again -/

/-- **What a checker hands on is coerced to itself, and is checked with the same outcome.** -/
theorem check_settles {schema v : Json} {c : Checker} {o : Outcome}
    (compiled : Checker.compile schema = .ok c) (done : c.check v = .ok o) :
    coerce schema o.value = .ok o.value ∧ c.check o.value = .ok o := by
  obtain ⟨own, -, rfl⟩ := map_eq_ok_iff.1 compiled
  have coerced := (check_eq_ok_iff.1 done).1
  exact ⟨coerce_coerced coerced, check_again done⟩

/-- A schema for chains of pairs: the first part of a pair is a number, the second one is null or a
truth value. -/
def pairSchema : Json :=
  .obj [("properties", .obj [
    ("pair", .obj [("items", .arr [
      .obj [("type", .str "number")],
      .obj [("type", .arr [.str "null", .str "boolean"])]])]),
    ("next", .obj [("$ref", .str "#")])])]

/-- Two pairs as they arrive: texts for numbers, one that spells none, and loose truth values. -/
def pairValue : Json :=
  .obj [("pair", .arr [.str "7", .int 0]),
    ("next", .obj [("pair", .arr [.str "x", .str "true"])])]

/-- The pairs as they are handed on. -/
def pairHandedOn : Json :=
  .obj [("pair", .arr [.int 7, .null]),
    ("next", .obj [("pair", .arr [.str "x", .bool true])])]

theorem pairValue_settles :
    ∃ c o, Checker.compile pairSchema = .ok c ∧ c.check pairValue = .ok o ∧
      o.value = pairHandedOn ∧ o.errors.map (·.keyword) = ["type"] ∧
      coerce pairSchema pairHandedOn = .ok pairHandedOn ∧ c.check pairHandedOn = .ok o := by
  have compiled : Checker.compile pairSchema = .ok ⟨pairSchema⟩ := rfl
  have coerced : coerce pairSchema pairValue = .ok pairHandedOn := by cbv
  have evaluated : (violations pairSchema pairHandedOn).map
      (·.map fun e => (e.keyword, e.keywordValue, e.value)) =
        .ok [(some "type", .str "number", .str "x")] := by
    cbv
  obtain ⟨found, done, one⟩ := map_eq_ok_iff.1 evaluated
  obtain ⟨e, rest, rfl, same, none⟩ := List.map_eq_cons_iff.1 one
  obtain rfl := List.map_eq_nil_iff.1 none
  obtain ⟨keyword, same⟩ := Prod.mk.inj same
  obtain ⟨keywordValue, value⟩ := Prod.mk.inj same
  obtain ⟨entry, reported, named⟩ :
      ∃ entry, report [e] = .ok [entry] ∧ entry.keyword = "type" := by
    rw [report, reportFrom, entriesOf, keyword, value, keywordValue]
    exact ⟨_, rfl, rfl⟩
  have checked : Checker.check ⟨pairSchema⟩ pairValue = .ok ⟨pairHandedOn, [entry]⟩ :=
    check_eq_ok_iff.2 ⟨coerced, _, done, reported⟩
  exact ⟨_, _, compiled, checked, rfl, congrArg (fun k => [k]) named,
    check_settles compiled checked⟩

/-! ## Values without violations -/

theorem compile_of_violations {schema v : Json} (noAddress : Lacks "$id" schema)
    (valid : violations schema v = .ok []) : Checker.compile schema = .ok ⟨schema⟩ := by
  rw [Checker.compile, (passes_of_violations noAddress valid).1]
  rfl

/-- **A value without violations is handed on as it is**, where no schema has patterns, an address
of its own or another dialect, and every reference is one into the document. -/
theorem check_spares {schema v : Json} (noPatterns : Lacks "patternProperties" schema)
    (noAddress : Lacks "$id" schema) (locals : RefersLocally schema) (keeps : KeepsDialect schema)
    (distinct : v.hasDistinctNames = true) (valid : violations schema v = .ok []) :
    coerce schema v = .ok v ∧
      ∃ c, Checker.compile schema = .ok c ∧ c.check v = .ok ⟨v, []⟩ := by
  have stays : coerce schema v = .ok v :=
    (coerce_eq_self_iff noAddress keeps distinct valid).2
      (not_overreaches noPatterns locals (.inl (.self schema)))
  exact ⟨stays, _, compile_of_violations noAddress valid, (check_eq_self_iff valid).2 stays⟩

/-- A schema for trees: a size, and a list of trees or nothing. -/
def treeSchema : Json :=
  .obj [("$schema", .str "http://json-schema.org/draft-07/schema#"),
    ("type", .arr [.str "object", .str "null"]),
    ("properties", .obj [
      ("size", .obj [("type", .arr [.str "integer", .str "string"])]),
      ("parts", .obj [("items", .obj [("$ref", .str "#"), ("type", .str "string")])])])]

/-- A tree whose size is a text that spells a number. -/
def treeValue : Json :=
  .obj [("size", .str "2"), ("parts", .arr [.null, .obj [("size", .int 1)]])]

theorem treeValue_spared :
    Lacks "patternProperties" treeSchema ∧ Lacks "$id" treeSchema ∧ RefersLocally treeSchema ∧
      KeepsDialect treeSchema ∧ treeValue.hasDistinctNames = true ∧
      violations treeSchema treeValue = .ok [] ∧ coerce treeSchema treeValue = .ok treeValue ∧
      ∃ c, Checker.compile treeSchema = .ok c ∧ c.check treeValue = .ok ⟨treeValue, []⟩ := by
  have noPatterns : Lacks "patternProperties" treeSchema := by decide
  have noAddress : Lacks "$id" treeSchema := by decide
  have locals : RefersLocally treeSchema := by decide
  have keeps : KeepsDialect treeSchema := by decide +kernel
  have distinct : treeValue.hasDistinctNames = true := by decide
  have valid : violations treeSchema treeValue = .ok [] := by cbv
  exact ⟨noPatterns, noAddress, locals, keeps, distinct, valid,
    check_spares noPatterns noAddress locals keeps distinct valid⟩

/-- A schema in a dialect in which `items` speaks of the items after the first ones. The root is read
in `Dialect.draft7` all the same, and in the dialect that it names where it is come back to. -/
def gridSchema : Json :=
  .obj [("$schema", .str "https://json-schema.org/draft/2020-12/schema"),
    ("properties", .obj [("row", .obj [("$ref", .str "#")])]),
    ("prefixItems", .arr [.obj [("type", .str "string")]]),
    ("items", .obj [("type", .str "integer")])]

/-- An object with a row of one item. -/
def gridValue ( item : Json) : Json := .obj [("row", .arr [item])]

/-- A text as the first item is valid, but coercion takes it to the schema for the items after it,
and the number that it is turned into is not valid. -/
theorem grid_changes :
    Lacks "patternProperties" gridSchema ∧ Lacks "$id" gridSchema ∧ RefersLocally gridSchema ∧
      (gridValue (.str "5")).hasDistinctNames = true ∧
      violations gridSchema (gridValue (.str "5")) = .ok [] ∧
      coerce gridSchema (gridValue (.str "5")) = .ok (gridValue (.int 5)) ∧
      (violations gridSchema (gridValue (.int 5))).map List.length = .ok 1 := by
  refine ⟨by decide, by decide, by decide, by decide, by cbv, by cbv, by cbv⟩

/-! ## Members that a pattern provides for -/

section Patterned

variable {schema members extra : List (String × Json)} {declared : Table Json} {w : Json}

/-- A member of an object, and what coercion makes of it under a subschema of a document. -/
def BecomesUnder (root sub : Json) (before after : String × Json) : Prop :=
  after.1 = before.1 ∧ coercePart root sub before.2 = .ok after.2

/-- Coercion of an object, where there is a schema for additional members: each member is taken to
the schema of its name if there is one, and to that schema if not. -/
theorem coerce_members_iff (follows : localReference? schema = none)
    (declares : Table.get? schema "properties" = some (.obj declared))
    (opens : Table.get? schema "additionalProperties" = some (.obj extra)) :
    coerce (.obj schema) (.obj members) = .ok w ↔
      ∃ coerced, w = .obj coerced ∧ List.Forall₂ (fun before =>
        BecomesUnder (.obj schema) ((Table.get? declared before.1).getD (.obj extra)) before)
          members coerced := by
  have governs (name : String) :
      memberSchema? schema name = .ok (some ((Table.get? declared name).getD (.obj extra))) := by
    rw [memberSchema?_eq (by rw [declares]; rfl) name, additionalSchema?, opens, Table.has]
    cases Table.get? declared name <;> rfl
  have each (before after : String × Json) :
      coerceMember (coercionScope (.obj schema)) coercionAddress schema before = .ok after ↔
        BecomesUnder (.obj schema) ((Table.get? declared before.1).getD (.obj extra)) before
          after := by
    rw [coerceMember, governs]
    simp only [map_eq_ok_iff]
    constructor
    · rintro ⟨w, done, rfl⟩
      exact ⟨rfl, done⟩
    · rintro ⟨name, done⟩
      exact ⟨after.2, done, Prod.ext name.symm rfl⟩
  have walk : coerce (.obj schema) (.obj members) =
      (mapUntilFault (coerceMember (coercionScope (.obj schema)) coercionAddress schema)
        members).map .obj := coerceUnder_obj follows members
  rw [walk, map_eq_ok_iff]
  simp only [mapUntilFault_eq_ok_iff, each]
  constructor
  · rintro ⟨coerced, all, rfl⟩
    exact ⟨coerced, rfl, all⟩
  · rintro ⟨coerced, rfl, all⟩
    exact ⟨coerced, all, rfl⟩

/-- **Coercion takes exactly the undeclared members to the schema for additional members, those that
a pattern provides for included. So an object without violations is handed on as it is exactly when
coercion does not overreach.** -/
theorem check_patterned (follows : localReference? schema = none)
    (declares : Table.get? schema "properties" = some (.obj declared))
    (opens : Table.get? schema "additionalProperties" = some (.obj extra)) :
    (∀ w, coerce (.obj schema) (.obj members) = .ok w ↔
      ∃ coerced, w = .obj coerced ∧ List.Forall₂ (fun before =>
        BecomesUnder (.obj schema) ((Table.get? declared before.1).getD (.obj extra)) before)
          members coerced) ∧
    (Lacks "$id" (.obj schema) → KeepsDialect (.obj schema) →
      (Json.obj members).hasDistinctNames = true →
      violations (.obj schema) (.obj members) = .ok [] →
      ((∃ c, Checker.compile (.obj schema) = .ok c ∧
          c.check (.obj members) = .ok ⟨.obj members, []⟩) ↔
        ¬ Overreaches (.obj schema) (chainLimit (.obj schema)) (.obj schema) (.obj members))) := by
  constructor
  · intro w
    exact coerce_members_iff follows declares opens
  · intro noAddress keeps distinct valid
    rw [← coerce_eq_self_iff noAddress keeps distinct valid]
    constructor
    · rintro ⟨c, compiled, done⟩
      obtain ⟨own, -, rfl⟩ := map_eq_ok_iff.1 compiled
      exact (check_eq_self_iff valid).1 done
    · intro stays
      exact ⟨_, compile_of_violations noAddress valid, (check_eq_self_iff valid).2 stays⟩

end Patterned

/-- A schema whose declared member and whose additional members are integers. Texts are provided for
by a pattern. -/
def labelKeywords : List (String × Json) :=
  [("properties", .obj [("id", .obj [("type", .str "integer")])]),
    ("patternProperties", .obj [("^s_", .obj [("type", .str "string")])]),
    ("additionalProperties", .obj [("type", .str "integer")])]

/-- An object with a text that is provided for. -/
def labelMembers : List (String × Json) := [("s_a", .str "5")]

/-- A text that spells a number passes, but it is turned into the number, and that does not pass. -/
theorem label_overreached :
    violations (.obj labelKeywords) (.obj labelMembers) = .ok [] ∧
      coerce (.obj labelKeywords) (.obj labelMembers) = .ok (.obj [("s_a", .int 5)]) ∧
      violations (.obj labelKeywords) (.obj [("s_a", .int 5)]) ≠ .ok [] ∧
      Overreaches (.obj labelKeywords) (chainLimit (.obj labelKeywords)) (.obj labelKeywords)
        (.obj labelMembers) := by
  have noAddress : Lacks "$id" (.obj labelKeywords) := by decide
  have keeps : KeepsDialect (.obj labelKeywords) := by decide
  have distinct : (Json.obj labelMembers).hasDistinctNames = true := by decide
  have evaluation (members : List (String × Json)) :
      violations (.obj labelKeywords) (.obj members) =
        applyAll .draft7 .draft7 ⟨.obj labelKeywords, ""⟩
          (Scope.mk (.obj labelKeywords) "").chainLimit false "" labelKeywords (.obj members) := rfl
  -- The evaluation as a whole does not reduce, but that of each keyword does.
  have valid : violations (.obj labelKeywords) (.obj labelMembers) = .ok [] := by
    rw [evaluation, applyAll_plain_eq_nil_iff rfl]
    intro keyword x hx
    have one := hx
    simp only [labelKeywords, List.mem_cons, Prod.mk.injEq, List.not_mem_nil, or_false] at one
    rcases one with ⟨rfl, rfl⟩ | ⟨rfl, rfl⟩ | ⟨rfl, rfl⟩
    · cbv
    · cbv
    · cbv
  have invalid : violations (.obj labelKeywords) (.obj [("s_a", .int 5)]) ≠ .ok [] := by
    rw [evaluation, ne_eq, applyAll_plain_eq_nil_iff rfl]
    intro nothing
    have hx : ("patternProperties", .obj [("^s_", .obj [("type", .str "string")])]) ∈
        labelKeywords := .tail _ (.head _)
    have refused :
        (applyKeyword .draft7 ⟨.obj labelKeywords, ""⟩
          (Scope.mk (.obj labelKeywords) "").chainLimit false "" labelKeywords "patternProperties" _
          hx (.obj [("s_a", .int 5)])).map List.length = .ok 1 := by
      cbv
    rw [nothing _ _ hx] at refused
    cases refused
  have changes : coerce (.obj labelKeywords) (.obj labelMembers) =
      .ok (.obj [("s_a", .int 5)]) := by
    cbv
  refine ⟨valid, changes, invalid, ?_⟩
  by_contra spared
  obtain ⟨c, compiled, done⟩ :=
    ((check_patterned rfl rfl rfl).2 noAddress keeps distinct valid).2 spared
  cases compiled
  rw [check_eq_self_iff valid, changes] at done
  cases done

end RouteContract.Schema
