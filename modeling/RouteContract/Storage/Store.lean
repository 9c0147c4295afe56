import RouteContract.Contract.Document
import RouteContract.Json.Reader
import RouteContract.Json.Writer
import RouteContract.Storage.Disk

/-!
# Stored snapshots

A store keeps one snapshot in the database at its place. A snapshot is written as a whole over the
one before, with one row for each route; reading puts the rows of a method back together in the
order in which they were written.
-/

namespace RouteContract.Storage

set_option autoImplicit false

open RouteContract

/-- Why a store does not answer. -/
inductive StoreError where
  /-- There is no database at the place of the store. -/
  | noSnapshot (place : Place)
  /-- The disk refuses. -/
  | disk (e : DiskError)
  /-- A contract holds a number that cannot be written. -/
  | unwritable
  /-- The text of a row is no JSON text. -/
  | unreadable
  /-- What is stored is no snapshot. -/
  | invalid (e : DocumentError)

/-! ## Rows -/

/-- The row of a route at a position of its method. -/
def rowOf (method : String) (position : Nat) (entry : RouteEntry) : Row :=
  ⟨method, position, entry.pattern, entry.path, entry.action.toJson.write⟩

/-- The rows of a snapshot in order. -/
def rowsOf (s : Snapshot) : List Row :=
  s.routes.flatMap fun bucket => bucket.2.zipIdx.map fun e => rowOf bucket.1 e.2 e.1

/-- Whether the contracts of a snapshot can be written. -/
def isWritable (s : Snapshot) : Bool := s.entries.all fun e => e.2.action.toJson.isWritable

/-- The document of a stored route. -/
def Row.document (row : Row) : Except StoreError Json :=
  match Json.read row.action.toList with
  | .error _ => .error .unreadable
  | .ok action =>
      .ok (.obj
        [("pattern", .str row.pattern), ("path", .str row.path), ("actionMetadata", action)])

/-- The documents of rows by method, added to those of the rows before. -/
def gather (done : Table (List Json)) : List Row → Except StoreError (Table (List Json))
  | [] => .ok done
  | row :: rest =>
      match row.document with
      | .error e => .error e
      | .ok d => gather (Table.append done row.method d) rest

/-- The snapshot that rows stand for. -/
def snapshotOf (rows : List Row) : Except StoreError Snapshot :=
  match gather [] rows with
  | .error e => .error e
  | .ok documents =>
      (Snapshot.read (.obj (Table.mapValues Json.arr documents))).mapError .invalid

/-! ## Stores -/

/-- The rows of a store, or those of one method. -/
def listRows (d : Disk) (p : Place) (method : Option String) :
    Except StoreError (List Row × Disk) :=
  match d.openDatabase p with
  | .error e => .error (.disk e)
  | .ok (content, d) =>
      .ok
        (match method.filter fun m => !m.isEmpty with
          | none => content.rows
          | some m => content.rows.filter fun row => row.method == Text.Unicode.lowercase m,
          d)

/-- Whether a snapshot was ever written to a store. -/
def isStamped (d : Disk) (p : Place) : Except StoreError (Bool × Disk) :=
  match d.openDatabase p with
  | .error e => .error (.disk e)
  | .ok (content, d) => .ok (content.isStamped, d)

/-- The snapshot of a store. -/
def readSnapshot (d : Disk) (p : Place) : Except StoreError (Snapshot × Disk) :=
  if d.hasDatabase p then
    match listRows d p none with
    | .error e => .error e
    | .ok (rows, d) => (snapshotOf rows).map (·, d)
  else .error (.noSnapshot p)

/-- Write a snapshot over the one in a store. All contracts are written before the disk is touched.
The folders on the way are made if need be; the number of rows is answered. -/
def replaceSnapshot (d : Disk) (p : Place) (s : Snapshot) : Except StoreError (Nat × Disk) :=
  if !isWritable s then .error .unwritable
  else
    match d.makeFolders p.folder.way with
    | .error e => .error (.disk e)
    | .ok d =>
        match d.openDatabase p with
        | .error e => .error (.disk e)
        | .ok (_, d) =>
            let rows := rowsOf s
            .ok (rows.length, d.write p (.database ⟨rows, true⟩))

end RouteContract.Storage
