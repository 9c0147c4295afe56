import RouteContract.Json.Basic
import RouteContract.Storage.Disk

/-!
# Databases as documents

A database is kept in a file as a document: whether a snapshot was ever written to it, and its rows.
-/

namespace RouteContract.Storage

set_option autoImplicit false

open RouteContract

/-- The document of a row. -/
def Row.toJson (row : Row) : Json :=
  .obj
    [("method", .str row.method), ("position", .int row.position), ("pattern", .str row.pattern),
      ("path", .str row.path), ("action", .str row.action)]

/-- The row of a document. -/
def Row.ofJson? (d : Json) : Option Row := do
  let text (name : String) : Option String := (d.member? name).bind Json.text?
  match d.member? "position" with
  | some (.int (.ofNat position)) =>
      return ⟨← text "method", position, ← text "pattern", ← text "path", ← text "action"⟩
  | _ => none

/-- The document of a database. -/
def Database.toJson (b : Database) : Json :=
  .obj [("stamped", .bool b.isStamped), ("rows", .arr (b.rows.map Row.toJson))]

/-- The database of a document. -/
def Database.ofJson? (d : Json) : Option Database := do
  match d.member? "stamped" with
  | some (.bool isStamped) =>
      let rows ← (← (d.member? "rows").bind Json.items?).mapM Row.ofJson?
      return ⟨rows, isStamped⟩
  | _ => none

/-- The document of a row reads back as the row. -/
theorem Row.ofJson?_toJson (row : Row) : Row.ofJson? row.toJson = some row := rfl

/-- Rows come back through their documents. -/
theorem Row.mapM_ofJson?_toJson (rows : List Row) :
    rows.mapM (Row.ofJson? ∘ Row.toJson) = some rows := by
  induction rows with
  | nil => rfl
  | cons row rest ih => simp [Row.ofJson?_toJson, ih]

/-- The document of a database reads back as the database. -/
theorem Database.ofJson?_toJson (b : Database) : Database.ofJson? b.toJson = some b := by
  simp [Database.ofJson?, Database.toJson, Json.member?, Json.members?, Table.get?, Json.items?,
    Row.mapM_ofJson?_toJson]

end RouteContract.Storage
