import RouteContract.Json.Basic
import RouteContract.Text.Unicode.Lowercase

/-!
# Contracts

The contract of an action says what a request to it and a response from it look like, as schemas. A
route leads to an action by a stored path matcher. A snapshot is everything that a server answers
to: for each method, in lower case, the routes in the order in which they are tried.
-/

namespace RouteContract

set_option autoImplicit false

/-- A schema as its keywords in order. -/
abbrev SchemaTable := Table Json

/-- An error that an action may answer with. -/
structure ErrorContract where
  code : String
  description : Option String
  payload : SchemaTable

/-- The contract of one action. -/
structure Action where
  name : String
  owner : Option String
  operationId : Option String
  description : Option String
  returnDescription : Option String
  statusCode : Int
  validateInput : Bool
  validateOutput : Bool
  params : SchemaTable
  query : SchemaTable
  body : SchemaTable
  returns : SchemaTable
  errors : List ErrorContract

/-- A route: a stored matcher, the template it was made from, and the action it leads to. -/
structure RouteEntry where
  pattern : String
  path : String
  action : Action

/-- The routes of each method. -/
structure Snapshot where
  routes : Table (List RouteEntry)

namespace Snapshot

/-- No routes. -/
def empty : Snapshot := ⟨[]⟩

/-- The routes that a request with a method may take, in order. -/
def forMethod (s : Snapshot) (method : String) : List RouteEntry :=
  (Table.get? s.routes (Text.Unicode.lowercase method)).getD []

/-- All routes with their methods, in order. -/
def entries (s : Snapshot) : List (String × RouteEntry) :=
  s.routes.flatMap fun bucket => bucket.2.map (bucket.1, ·)

end Snapshot

/-! ## Documents -/

mutual
/-- A value as a document holds it: null stands for a number that is not finite. -/
def finiteJson : Json → Json
  | .float (.infinite _) => .null
  | .float .undefined => .null
  | .float (.finite negative m) => .float (.finite negative m)
  | .arr items => .arr (finiteItems items)
  | .obj members => .obj (finiteMembers members)
  | .null => .null
  | .bool b => .bool b
  | .int i => .int i
  | .str s => .str s

/-- The items of an array as a document holds them. -/
def finiteItems : List Json → List Json
  | [] => []
  | item :: rest => finiteJson item :: finiteItems rest

/-- The members of an object as a document holds them. -/
def finiteMembers : List (String × Json) → List (String × Json)
  | [] => []
  | (name, value) :: rest => (name, finiteJson value) :: finiteMembers rest
end

/-- A text that may be missing. -/
def optionalText (t : Option String) : Json := t.elim .null .str

/-- The fields of an error. -/
def ErrorContract.fields (e : ErrorContract) : Json :=
  .obj [("code", .str e.code), ("description", optionalText e.description),
    ("payloadType", .obj e.payload)]

/-- The fields of an action. -/
def Action.fields (a : Action) : Json :=
  .obj
    [("name", .str a.name), ("controllerName", optionalText a.owner),
      ("operationId", optionalText a.operationId), ("description", optionalText a.description),
      ("returnDescription", optionalText a.returnDescription),
      ("defaultStatusCode", .int a.statusCode), ("validateInput", .bool a.validateInput),
      ("validateOutput", .bool a.validateOutput), ("paramsType", .obj a.params),
      ("queryType", .obj a.query), ("bodyType", .obj a.body), ("returnType", .obj a.returns),
      ("errors", .arr (a.errors.map ErrorContract.fields))]

/-- The fields of a route. -/
def RouteEntry.fields (r : RouteEntry) : Json :=
  .obj [("pattern", .str r.pattern), ("path", .str r.path), ("actionMetadata", r.action.fields)]

/-- The fields of a snapshot. -/
def Snapshot.fields (s : Snapshot) : Json :=
  .obj (Table.mapValues (fun entries => .arr (entries.map RouteEntry.fields)) s.routes)

/-- The document of an action. -/
def Action.toJson (a : Action) : Json := finiteJson a.fields

/-- The document of a route. -/
def RouteEntry.toJson (r : RouteEntry) : Json := finiteJson r.fields

/-- The document of a snapshot. -/
def Snapshot.toJson (s : Snapshot) : Json := finiteJson s.fields

/-! ## Equality -/

/-- Whether two snapshots say the same. The order of methods does not count, and neither does the
way a number is written. -/
def Snapshot.same (s t : Snapshot) : Bool := Json.numericallyEqual s.fields t.fields

end RouteContract
