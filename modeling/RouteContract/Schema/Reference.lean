import RouteContract.Json.Basic
import RouteContract.Number.Numeral
import RouteContract.Pointer
import RouteContract.Schema.Fault
import RouteContract.Schema.Uri

/-!
# References inside a schema

A reference is looked up in a schema document. Its fragment is a pointer into the document or the
name of an anchor, a subschema whose `$id` is that name behind a hash sign. A subschema with any
other `$id` is a document of its own at that address, and references inside it start there.
-/

namespace RouteContract.Schema

set_option autoImplicit false

/-! ## Addresses of schemas -/

/-- The address that a schema gives itself; an anchor is no address. -/
def ownAddress? : Json → Except Fault (Option String)
  | .bool _ => .ok none
  | .obj members =>
      match Table.get? members "$id" with
      | none => .ok none
      | some .null => .ok none
      | some (.str id) =>
          .ok <|
            if id.toList.head? == some '#' then none
            else some (String.ofList (Text.dropRightWhile (· == '#') id.toList))
      | some _ => .error .notASchema
  | _ => .error .notASchema

/-- The anchor that a schema gives itself. -/
def ownAnchor? (members : List (String × Json)) : Option String :=
  match Table.get? members "$id" with
  | some (.str id) =>
      match id.toList with
      | '#' :: name => some (String.ofList name)
      | _ => none
  | _ => none

/-- The base address inside a schema. -/
def baseInside (base : String) (schema : Json) : Except Fault String :=
  (ownAddress? schema).map fun own => (own.map (joinUri base)).getD base

/-! ## Subschemas -/

/-- Keywords whose value is a schema. -/
def schemaKeywords : List String :=
  ["additionalItems", "additionalProperties", "contains", "else", "if", "not", "propertyNames",
    "then"]

/-- Keywords whose value is a list of schemas. -/
def listKeywords : List String := ["allOf", "anyOf", "oneOf"]

/-- Keywords whose value is a table of schemas. -/
def tableKeywords : List String := ["definitions", "patternProperties", "properties"]

/-- The documents and the anchors that a schema declares, each at its address. -/
structure Index where
  documents : List (String × Json)
  anchors : List (String × String × Json)

namespace Index

/-- No document and no anchor. -/
def empty : Index := ⟨[], []⟩

/-- Two indexes together. -/
def append (a b : Index) : Index := ⟨a.documents ++ b.documents, a.anchors ++ b.anchors⟩

/-- An index and then another one, unless one of them has a fault. -/
def andThen (a b : Except Fault Index) : Except Fault Index :=
  match a with
  | .error e => .error e
  | .ok i => b.map i.append

mutual
/-- The documents and anchors of a schema under a base address. -/
def ofSchema (base : String) : Json → Except Fault Index
  | .bool _ => .ok empty
  | .obj members =>
      match baseInside base (.obj members) with
      | .error e => .error e
      | .ok inside =>
          let document := if inside = base then [] else [(inside, Json.obj members)]
          let anchor := (ownAnchor? members).toList.map fun name => (inside, name, Json.obj members)
          andThen (.ok ⟨document, anchor⟩) (ofKeywords inside members)
  | _ => .error .notASchema

/-- The documents and anchors below the keywords of a schema. -/
def ofKeywords (base : String) : List (String × Json) → Except Fault Index
  | [] => .ok empty
  | (keyword, value) :: rest =>
      andThen
        (if schemaKeywords.contains keyword then ofSchema base value
        else if listKeywords.contains keyword then ofList base value
        else if tableKeywords.contains keyword then ofTable base value
        else if keyword = "items" then ofItems base value
        else if keyword = "dependencies" then ofDependencies base value
        else .ok empty)
        (ofKeywords base rest)

/-- The documents and anchors of a list of schemas. -/
def ofList (base : String) : Json → Except Fault Index
  | .arr schemas => ofSchemas base schemas
  | .str s => if s.isEmpty then .ok empty else .error .notASchema
  | .obj members => if members.isEmpty then .ok empty else .error .notASchema
  | _ => .error .wrongKind

/-- The documents and anchors of a table of schemas. -/
def ofTable (base : String) : Json → Except Fault Index
  | .obj members => ofMembers base members
  | _ => .error .notASchema

/-- The documents and anchors of a schema for items, or of a list of such. -/
def ofItems (base : String) : Json → Except Fault Index
  | .null => .ok empty
  | .arr schemas => ofSchemas base schemas
  | .str s => if s.isEmpty then .ok empty else .error .notASchema
  | .bool _ => .ok empty
  | .obj members => ofSchema base (.obj members)
  | _ => .error .notASchema

/-- The documents and anchors of dependencies, which hold schemas when the first one does. -/
def ofDependencies (base : String) : Json → Except Fault Index
  | .null => .ok empty
  | .obj [] => .ok empty
  | .obj ((name, .obj first) :: rest) => ofMembers base ((name, .obj first) :: rest)
  | .obj _ => .ok empty
  | _ => .error .notASchema

/-- The documents and anchors of several schemas. -/
def ofSchemas (base : String) : List Json → Except Fault Index
  | [] => .ok empty
  | schema :: rest => andThen (ofSchema base schema) (ofSchemas base rest)

/-- The documents and anchors of the schemas in a table. -/
def ofMembers (base : String) : List (String × Json) → Except Fault Index
  | [] => .ok empty
  | (_, schema) :: rest => andThen (ofSchema base schema) (ofMembers base rest)
end

end Index

end RouteContract.Schema
