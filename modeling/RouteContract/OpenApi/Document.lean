import RouteContract.OpenApi.Operation
import RouteContract.OpenApi.Rebase

/-!
# OpenAPI documents

A document is a template with the operations of a snapshot under its paths. What the template itself
says about a path counts over what is generated, keyword by keyword, and is left as it is; in the
generated part the references inside schemas are written against the document.
-/

namespace RouteContract.OpenApi

set_option autoImplicit false

open RouteContract Schema

/-- The template of a service about which only a title and a version are known. -/
def plainTemplate (title version : String) : Json :=
  .obj
    [("openapi", .str "3.0.3"), ("info", .obj [("title", .str title), ("version", .str version)]),
      ("paths", .obj [])]

/-- The template where none is given. -/
def defaultTemplate : Json := plainTemplate "REST API" "1.0.0"

/-- Path items with one more operation. -/
def addOperation (items : Table (Table Json)) (path method : String) (op : Json) :
    Table (Table Json) :=
  Table.put items path (Table.put ((Table.get? items path).getD []) method op)

/-- The operations of routes by path and method. A later route with the same path and method counts.
-/
def addRoutes (items : Table (Table Json)) :
    List (String × RouteEntry) → Except Fault (Table (Table Json))
  | [] => .ok items
  | (method, entry) :: rest =>
      match operation entry.action with
      | .error e => .error e
      | .ok op => addRoutes (addOperation items entry.path method op) rest

/-- The path items of a snapshot. -/
def pathItems (s : Snapshot) : Except Fault (Table (Table Json)) := addRoutes [] s.entries

/-- Path items as they stand in a document. -/
def placed (items : Table (Table Json)) : Table Json :=
  items.map fun item => (item.1, rebase none ["paths", item.1] (.obj item.2))

/-- What a template says about paths. -/
def templatePaths (template : Table Json) : Except Fault (Table Json) :=
  match filled? template "paths" with
  | none => .ok []
  | some (.obj paths) => .ok paths
  | some _ => .error .notASchema

/-- Paths with what a template says about them written over. -/
def overlay (paths : Table Json) : List (String × Json) → Except Fault (Table Json)
  | [] => .ok paths
  | (path, .obj item) :: rest =>
      let generated := ((Table.get? paths path).bind Json.members?).getD []
      overlay (Table.put paths path (.obj (Table.putAll generated item))) rest
  | (_, _) :: _ => .error .wrongKind

/-- The document of a template and a snapshot. -/
def document (template : Json) (s : Snapshot) : Except Fault Json :=
  match pathItems s with
  | .error e => .error e
  | .ok items =>
      match template with
      | .obj members =>
          match templatePaths members with
          | .error e => .error e
          | .ok own =>
              (overlay (placed items) own).map fun paths =>
                .obj (Table.put members "paths" (.obj paths))
      | _ => .error .notASchema

end RouteContract.OpenApi
