import RouteContract.Json.Display
import RouteContract.Schema.Assertion
import RouteContract.Schema.Violation

/-!
# Reports

How violations are told to a client: each as the place in the value, the keyword, a message, the
parameters of the keyword, and the place in the schema. Missing and additional members are reported
one name at a time.
-/

namespace RouteContract.Schema

set_option autoImplicit false

open RouteContract Pointer

/-- One entry of a report. -/
structure Entry where
  instancePath : String
  keyword : String
  message : String
  params : List (String × Json)
  schemaPath : String

/-- An entry as a document. -/
def Entry.toJson (e : Entry) : Json :=
  .obj [("instancePath", .str e.instancePath), ("keyword", .str e.keyword),
    ("message", .str e.message), ("params", .obj e.params), ("schemaPath", .str e.schemaPath)]

/-! ## Parameters -/

/-- The comparison that a limit asks for; a limit on a length has none. -/
def limitComparison? (keyword : String) : Option (Option String) :=
  Table.get?
    [("minimum", some ">="), ("maximum", some "<="), ("exclusiveMinimum", some ">"),
      ("exclusiveMaximum", some "<"), ("minLength", none), ("maxLength", none), ("minItems", none),
      ("maxItems", none), ("minProperties", none), ("maxProperties", none)]
    keyword

/-- Several type names as one text. -/
def joinedTypes (x : Json) : Except Fault Json :=
  match x with
  | .arr names =>
      match names.mapM Json.text? with
      | some texts => .ok (.str (",".intercalate texts))
      | none => .error .wrongKind
  | _ => .ok x

/-- The parameters of a violation. -/
def paramsOf (keyword : Option String) (x : Json) : Except Fault (List (String × Json)) :=
  match keyword with
  | none => .ok []
  | some keyword =>
      if keyword = "type" then (joinedTypes x).map fun t => [("type", t)]
      else if keyword = "enum" then .ok [("allowedValues", x)]
      else if keyword = "const" then .ok [("allowedValue", x)]
      else if keyword = "pattern" then .ok [("pattern", x)]
      else if keyword = "format" then .ok [("format", x)]
      else
        match limitComparison? keyword with
        | some (some comparison) => .ok [("comparison", .str comparison), ("limit", x)]
        | some none => .ok [("limit", x)]
        | none => .ok []

/-! ## Names that are missing or additional -/

/-- The elements of a list of names that an object lacks, in order. -/
def missingNames (members : List (String × Json)) : List Json → Except Fault (List Json)
  | [] => .ok []
  | name :: rest =>
      match isMissing members name with
      | .error e => .error e
      | .ok missing =>
          (missingNames members rest).map fun more => if missing then name :: more else more

/-- A keyword's value, or an empty object when it is absent or nothing. -/
def tableUnder (schema : List (String × Json)) (keyword : String) : Json :=
  match Table.get? schema keyword with
  | none => .obj []
  | some x => if x.isVoid then .obj [] else x

/-- Whether one of several patterns occurs in a name. -/
def someOccurs (name : String) : List String → Except Fault Bool
  | [] => .ok false
  | source :: rest =>
      match patternOccurs source name with
      | .error e => .error e
      | .ok true => .ok true
      | .ok false => someOccurs name rest

/-- Whether a name is neither declared nor covered by one of several patterns. -/
def isUncovered (declared : Json) (patterns : List String) (name : String) : Except Fault Bool :=
  match namesContain declared name with
  | .error e => .error e
  | .ok true => .ok false
  | .ok false => (someOccurs name patterns).map (!·)

/-- The names that are neither declared nor covered by one of several patterns. -/
def uncoveredNames (declared : Json) (patterns : List String) :
    List String → Except Fault (List String)
  | [] => .ok []
  | name :: rest =>
      match isUncovered declared patterns name with
      | .error e => .error e
      | .ok b =>
          (uncoveredNames declared patterns rest).map fun more => if b then name :: more else more

/-- The names of an object that its schema neither declares nor covers by a pattern. -/
def additionalNames (schema members : List (String × Json)) : Except Fault (List String) :=
  match tableUnder schema "patternProperties" with
  | .obj patterns =>
      uncoveredNames (tableUnder schema "properties") (Table.keys patterns) (Table.keys members)
  | _ => .error .notASchema

/-! ## Entries -/

/-- The entry about a missing name. -/
def missingEntry (instancePath schemaPath : String) (name : Json) : Entry :=
  ⟨instancePath, "required", "must have required property '" ++ name.displayBare ++ "'",
    [("missingProperty", name)], schemaPath⟩

/-- The entry about an additional name. -/
def additionalEntry (instancePath schemaPath name : String) : Entry :=
  ⟨instancePath, "additionalProperties", "must NOT have additional properties",
    [("additionalProperty", .str name)], schemaPath⟩

/-- The places at which missing names were reported so far, with how many at each. -/
abbrev Seen := List ((List Step × List Step) × Nat)

/-- How many missing names were reported at a place. -/
def Seen.count (seen : Seen) (place : List Step × List Step) : Nat :=
  match seen.find? (·.1 == place) with
  | some found => found.2
  | none => 0

/-- One more missing name at a place. -/
def Seen.next (seen : Seen) (place : List Step × List Step) : Seen :=
  (place, seen.count place + 1) :: seen

/-- The entries about one violation. The violations of `required` at one place are the missing names
in turn. -/
def entriesOf (seen : Seen) (e : Violation) : Except Fault (List Entry × Seen) :=
  let instancePath := Pointer.ofSteps e.path
  let schemaPath := "#" ++ Pointer.ofSteps e.schemaPath
  let general :=
    (paramsOf e.keyword e.keywordValue).map fun params =>
      ([⟨instancePath, e.keyword.getD "None", e.message, params, schemaPath⟩], seen)
  match e.keyword, e.value with
  | some "required", .obj members =>
      match elements e.keywordValue with
      | .error f => .error f
      | .ok names =>
          (missingNames members names).map fun missing =>
            let place := (e.path, e.schemaPath)
            let name := (missing[seen.count place]?).getD .null
            ([missingEntry instancePath schemaPath name], seen.next place)
  | some "additionalProperties", .obj members =>
      (additionalNames e.schema members).map fun names =>
        (names.map (additionalEntry instancePath schemaPath), seen)
  | _, _ => general

/-- The entries about violations, in order. -/
def reportFrom (seen : Seen) : List Violation → Except Fault (List Entry)
  | [] => .ok []
  | e :: rest =>
      match entriesOf seen e with
      | .error f => .error f
      | .ok (entries, seen) => (reportFrom seen rest).map (entries ++ ·)

/-- The report about violations. -/
def report (violations : List Violation) : Except Fault (List Entry) := reportFrom [] violations

end RouteContract.Schema
