import RouteContract.Contract.Action
import RouteContract.Schema.Assertion

/-!
# Operations

How the contract of an action is told in an OpenAPI document: the properties of its parameter and
query schemas become parameters, its body schema a request body, and its return schema and errors
become responses by status.
-/

namespace RouteContract.OpenApi

set_option autoImplicit false

open RouteContract Schema

/-- What stands under a keyword, unless it is absent or nothing. -/
def filled? (schema : SchemaTable) (keyword : String) : Option Json :=
  (Table.get? schema keyword).filter fun x => !x.isVoid

/-- Values that can be looked up by name; an array or an object among them is a fault. -/
def lookupNames : List Json → Except Fault (List Json)
  | [] => .ok []
  | .arr _ :: _ => .error .wrongKind
  | .obj _ :: _ => .error .wrongKind
  | v :: rest => (lookupNames rest).map (v :: ·)

/-- The names that a schema requires. -/
def requiredNames (schema : SchemaTable) : Except Fault (List Json) :=
  match filled? schema "required" with
  | none => .ok []
  | some x =>
      match elements x with
      | .error e => .error e
      | .ok names => lookupNames names

/-- The properties that a schema declares. -/
def declaredProperties (schema : SchemaTable) : Except Fault (Table Json) :=
  match filled? schema "properties" with
  | none => .ok []
  | some (.obj properties) => .ok properties
  | some _ => .error .notASchema

/-- A parameter of an operation. -/
def parameter (place : String) (isRequired : Bool) (name : String) (schema : Json) : Json :=
  .obj
    [("name", .str name), ("in", .str place), ("required", .bool isRequired), ("schema", schema)]

/-- The parameters of an operation, those of the path first. -/
def parameters (a : Action) : Except Fault (List Json) :=
  match requiredNames a.query with
  | .error e => .error e
  | .ok names =>
      match declaredProperties a.params with
      | .error e => .error e
      | .ok params =>
          match declaredProperties a.query with
          | .error e => .error e
          | .ok query =>
              .ok <|
                params.map (fun p => parameter "path" true p.1 p.2) ++
                  query.map fun p =>
                    parameter "query" (names.any fun n => n.text? == some p.1) p.1 p.2

/-- A schema as the content of a message. -/
def content (schema : SchemaTable) : Json :=
  .obj [("application/json", .obj [("schema", .obj schema)])]

/-- Whether a schema says that there is no content. -/
def isContentless (schema : SchemaTable) : Bool :=
  ((Table.get? schema "type").bind Json.text?) == some "null"

/-- A response with a description and, unless there is none, a content. -/
def response (description : String) (schema : SchemaTable) : Json :=
  .obj <|
    ("description", .str description) ::
      if isContentless schema then [] else [("content", content schema)]

/-- A text, or a default where it is missing or empty. -/
def textOr (text : Option String) (default : String) : String :=
  match text with
  | some t => if t.isEmpty then default else t
  | none => default

/-- The status under which an action answers when all is well. -/
def successStatus (a : Action) : String := (Json.int a.statusCode).display

/-- The responses of an operation by status. An error under the status of success replaces it. -/
def responses (a : Action) : Table Json :=
  a.errors.foldl
    (fun done e =>
      Table.put done e.code (response (textOr e.description (e.code ++ " Error")) e.payload))
    [(successStatus a, response (textOr a.returnDescription "Success response") a.returns)]

/-- The operation of an action. -/
def operation (a : Action) : Except Fault Json :=
  (parameters a).map fun parameters =>
    .obj <|
      [("operationId", .str (textOr a.operationId a.name))] ++
        ((a.description.map fun d => ("description", .str d)).toList) ++
        [("parameters", .arr parameters)] ++
        (if (filled? a.body "properties").isSome then
          [("requestBody", .obj [("required", .bool true), ("content", content a.body)])]
        else []) ++
        [("responses", .obj (responses a))]

end RouteContract.OpenApi
