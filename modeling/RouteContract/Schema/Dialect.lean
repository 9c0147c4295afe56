import RouteContract.Schema.Assertion
import RouteContract.Schema.Reference

/-!
# Dialects of schemas

Schemas are written in one of several dialects, which differ in their keywords. A schema may name
its dialect under `$schema`. One that does not, or that names one that is not known, is read in the
dialect of the schema around it, and a document that is checked is read in `Dialect.draft7`.

A dialect says which keywords of a schema count, what they do, and where a schema states an address
of its own. Not among the keywords are those for what other keywords have left unevaluated, and a
dynamic reference is followed where it is written.
-/

namespace RouteContract.Schema

set_option autoImplicit false

open RouteContract

/-- The dialects that are known. -/
inductive Dialect where
  | draft3
  | draft4
  | draft6
  | draft7
  | draft2019
  | draft2020
deriving Repr, DecidableEq

/-! ## What keywords do -/

/-- Keywords that apply schemas to the value itself. -/
inductive Beside where
  | allOf
  | anyOf
  | oneOf
  | negation
  | condition
  /-- One schema, or several, that count as well. -/
  | extension
  /-- Types, or schemas in the place of types, of which one must admit the value. -/
  | typeOrSchema
  /-- The same of which none may admit it. -/
  | exclusion
deriving Repr, DecidableEq

/-- Keywords that apply schemas to the items of an array. -/
inductive ForItems where
  /-- One schema for all items, or a list with one for each of the first items. -/
  | items
  /-- The same where a schema is always an object. -/
  | strictItems
  /-- A schema for each of the first items. -/
  | firstItems
  /-- One schema for the items after those. -/
  | laterItems
  | additionalItems
  | contains
  /-- The same with limits on the number of items that satisfy the schema. -/
  | containsCounted
deriving Repr, DecidableEq

/-- Keywords that apply schemas to the members of an object, or to an object with some member. -/
inductive ForMembers where
  | properties
  /-- The same where a schema may say that its member is required. -/
  | requiringProperties
  | patternProperties
  | additionalProperties
  | propertyNames
  /-- For each member that may be present a schema, or a list of names that are then required. -/
  | dependencies
  /-- The same where a single name may stand for a list of one. -/
  | looseDependencies
  | dependentRequired
  | dependentSchemas
deriving Repr, DecidableEq

/-- What a keyword does. -/
inductive Meaning where
  | assertion (assertion : Assertion)
  /-- It stands for the schema that its value refers to. -/
  | reference
  /-- It stands for the document that it is written in. -/
  | recursion
  | beside (kind : Beside)
  | forItems (kind : ForItems)
  | forMembers (kind : ForMembers)
deriving Repr, DecidableEq

/-! ## Keywords beside a reference -/

/-- The keywords of a schema where a reference hides all others. -/
def activeKeywords (schema : List (String × Json)) : List (String × Json) :=
  match Table.get? schema "$ref" with
  | none => schema
  | some .null => schema
  | some ref => [("$ref", ref)]

/-- An active keyword is a keyword of the schema. -/
theorem mem_of_mem_activeKeywords {schema : List (String × Json)} {entry : String × Json}
    (h : entry ∈ activeKeywords schema) : entry ∈ schema := by
  unfold activeKeywords at h
  split at h
  · exact h
  · exact h
  · next ref _ hr =>
    rw [List.mem_singleton] at h
    subst h
    exact Table.mem_of_get? hr

namespace Dialect

/-! ## Names of dialects -/

/-- The addresses that name dialects. -/
def addresses : List (String × Dialect) :=
  [("http://json-schema.org/draft-03/schema", .draft3),
    ("http://json-schema.org/draft-04/schema", .draft4),
    ("http://json-schema.org/draft-06/schema", .draft6),
    ("http://json-schema.org/draft-07/schema", .draft7),
    ("https://json-schema.org/draft/2019-09/schema", .draft2019),
    ("https://json-schema.org/draft/2020-12/schema", .draft2020)]

/-- The dialect that an address names. Blanks before it do not count, nor does an empty fragment or
query. -/
def ofAddress? (address : String) : Option Dialect :=
  let visible := (address.toList.dropWhile (·.toNat ≤ 0x20)).filter fun c =>
    c != '\t' && c != '\r' && c != '\n'
  Table.get? addresses (String.ofList (Uri.parse [] visible).render)

/-- The dialect that a name stands for, in a schema of a dialect. -/
def named (d : Dialect) (name : Json) : Except Fault Dialect :=
  match name with
  | .str address => .ok ((ofAddress? address).getD d)
  | .arr _ => .error .wrongKind
  | .obj _ => .error .wrongKind
  | x => if x.isVoid then .ok d else .error .notASchema

/-- The dialect in which a schema is read that stands in one of a dialect. -/
def inside (d : Dialect) (schema : Json) : Except Fault Dialect :=
  match schema with
  | .bool _ => .ok d
  | .obj members =>
      match Table.get? members "$schema" with
      | none => .ok d
      | some name => d.named name
  | x =>
      match namesContain x "$schema" with
      | .error e => .error e
      | .ok true => .error .wrongKind
      | .ok false => .ok d

/-- Why something that is no schema cannot be one in a dialect. -/
def unusable (d : Dialect) (x : Json) : Fault :=
  match d, x with
  | .draft3, .arr _ => .notASchema
  | .draft3, .str _ => .notASchema
  | .draft3, _ => .wrongKind
  | .draft4, .arr _ => .notASchema
  | .draft4, .str _ => .notASchema
  | .draft4, _ => .wrongKind
  | _, _ => .notASchema

/-! ## Addresses -/

/-- The address that a schema gives itself. -/
def ownAddress? (d : Dialect) (members : List (String × Json)) : Except Fault (Option String) :=
  match d with
  | .draft6 => Schema.ownAddress? (.obj members)
  | .draft7 => Schema.ownAddress? (.obj members)
  | .draft2019 => anyAddress? members
  | .draft2020 => anyAddress? members
  | .draft3 => oldAddress? members
  | .draft4 => oldAddress? members
where
  /-- An anchor counts as an address. -/
  anyAddress? (members : List (String × Json)) : Except Fault (Option String) :=
    match Table.get? members "$id" with
    | none => .ok none
    | some .null => .ok none
    | some (.str id) => .ok (some (String.ofList (Text.dropRightWhile (· == '#') id.toList)))
    | some _ => .error .notASchema
  /-- The address has another name, and a reference hides it. -/
  oldAddress? (members : List (String × Json)) : Except Fault (Option String) :=
    if Table.has members "$ref" then .ok none
    else Schema.ownAddress? (.obj [("$id", (Table.get? members "id").getD .null)])

/-- The base address inside a schema. -/
def baseInside (d : Dialect) (base : String) (members : List (String × Json)) :
    Except Fault String :=
  (d.ownAddress? members).map fun own => (own.map (joinUri base)).getD base

/-! ## Keywords -/

/-- The assertion that a keyword is in dialects in which a limit is made exclusive by a keyword
beside it. -/
def earlyAssertion? (schema : List (String × Json)) (keyword : String) : Option Assertion :=
  let excludes := fun name => !((Table.get? schema name).getD (.bool false)).isVoid
  if keyword = "type" then some .strictType
  else if keyword = "minimum" && excludes "exclusiveMinimum" then some .exclusiveMinimum
  else if keyword = "maximum" && excludes "exclusiveMaximum" then some .exclusiveMaximum
  else if ["const", "exclusiveMinimum", "exclusiveMaximum"].contains keyword then none
  else Assertion.ofKeyword? keyword

/-- The assertion that a keyword of a schema is. -/
def assertion? (d : Dialect) (schema : List (String × Json)) (keyword : String) :
    Option Assertion :=
  match d with
  | .draft3 =>
      if keyword = "divisibleBy" then some .multipleOf
      else if ["type", "multipleOf", "required", "minProperties", "maxProperties"].contains keyword
        then none
      else earlyAssertion? schema keyword
  | .draft4 => earlyAssertion? schema keyword
  | .draft6 => Assertion.ofKeyword? keyword
  | .draft7 => Assertion.ofKeyword? keyword
  | .draft2019 => Assertion.ofKeyword? keyword
  | .draft2020 => Assertion.ofKeyword? keyword

/-- Keywords that came with `draft4`. -/
def keywords4 : List (String × Meaning) :=
  [("$ref", .reference), ("allOf", .beside .allOf), ("anyOf", .beside .anyOf),
    ("oneOf", .beside .oneOf), ("not", .beside .negation),
    ("properties", .forMembers .properties), ("patternProperties", .forMembers .patternProperties),
    ("additionalProperties", .forMembers .additionalProperties)]

/-- Keywords of the dialects from `draft6` to `draft2019`. -/
def keywords6 : List (String × Meaning) :=
  keywords4 ++ [("items", .forItems .items), ("additionalItems", .forItems .additionalItems),
    ("propertyNames", .forMembers .propertyNames)]

/-- Keywords that came with `draft2019`. -/
def keywords2019 : List (String × Meaning) :=
  [("if", .beside .condition), ("contains", .forItems .containsCounted),
    ("dependentRequired", .forMembers .dependentRequired),
    ("dependentSchemas", .forMembers .dependentSchemas)]

/-- The keywords of a dialect that are no assertions. -/
def applicators : Dialect → List (String × Meaning)
  | .draft3 =>
      [("$ref", .reference), ("extends", .beside .extension), ("type", .beside .typeOrSchema),
        ("disallow", .beside .exclusion), ("items", .forItems .strictItems),
        ("additionalItems", .forItems .additionalItems),
        ("properties", .forMembers .requiringProperties),
        ("patternProperties", .forMembers .patternProperties),
        ("additionalProperties", .forMembers .additionalProperties),
        ("dependencies", .forMembers .looseDependencies)]
  | .draft4 =>
      keywords4 ++ [("items", .forItems .strictItems),
        ("additionalItems", .forItems .additionalItems),
        ("dependencies", .forMembers .dependencies)]
  | .draft6 =>
      keywords6 ++ [("contains", .forItems .contains), ("dependencies", .forMembers .dependencies)]
  | .draft7 =>
      keywords6 ++ [("contains", .forItems .contains), ("dependencies", .forMembers .dependencies),
        ("if", .beside .condition)]
  | .draft2019 => keywords6 ++ keywords2019 ++ [("$recursiveRef", .recursion)]
  | .draft2020 =>
      keywords4 ++ keywords2019 ++ [("prefixItems", .forItems .firstItems),
        ("items", .forItems .laterItems), ("propertyNames", .forMembers .propertyNames),
        ("$dynamicRef", .reference)]

/-- What a keyword of a schema does, if it has a meaning. -/
def meaning? (d : Dialect) (schema : List (String × Json)) (keyword : String) : Option Meaning :=
  match d.assertion? schema keyword with
  | some assertion => some (.assertion assertion)
  | none => Table.get? d.applicators keyword

/-- The keywords of a schema that count. In most dialects a reference hides the others. -/
def countingKeywords : Dialect → List (String × Json) → List (String × Json)
  | .draft2019, schema => schema
  | .draft2020, schema => schema
  | _, schema => activeKeywords schema

/-- A keyword that counts is a keyword of the schema. -/
theorem mem_of_mem_countingKeywords {d : Dialect} {schema : List (String × Json)}
    {entry : String × Json} (h : entry ∈ d.countingKeywords schema) : entry ∈ schema := by
  cases d with
  | draft2019 => exact h
  | draft2020 => exact h
  | draft3 => exact mem_of_mem_activeKeywords h
  | draft4 => exact mem_of_mem_activeKeywords h
  | draft6 => exact mem_of_mem_activeKeywords h
  | draft7 => exact mem_of_mem_activeKeywords h

end Dialect

end RouteContract.Schema
