import RouteContract.Storage.Place

/-!
# Disks

A disk holds folders and databases. A database holds the rows of one snapshot in the order in which
they were written, and remembers whether one was ever written. Opening a database makes an empty one
where its folder exists and nothing stands in its place.
-/

namespace RouteContract.Storage

set_option autoImplicit false

/-- A stored route. Its contract is kept as a text. -/
structure Row where
  method : String
  position : Nat
  pattern : String
  path : String
  action : String
deriving Repr, DecidableEq

/-- The rows of a database, and whether a snapshot was ever written to it. -/
structure Database where
  rows : List Row
  isStamped : Bool
deriving Repr, DecidableEq

/-- A database to which nothing was written. -/
def Database.empty : Database := ⟨[], false⟩

/-- What stands at a place. -/
inductive Entry where
  | folder
  | database (content : Database)
deriving Repr, DecidableEq

/-- A disk: what stands at each place. The folder without a name is always there. -/
structure Disk where
  entries : List (Place × Entry)

/-- Why a disk refuses. -/
inductive DiskError where
  /-- A database can neither be opened nor made. -/
  | unopenable
  /-- A folder cannot be made where a database stands. -/
  | occupied
  /-- A folder cannot be made inside a database. -/
  | notAFolder
deriving Repr, DecidableEq

namespace Disk

/-- A disk without databases. -/
def empty : Disk := ⟨[]⟩

/-- What stands at a place. -/
def entry? (d : Disk) (p : Place) : Option Entry :=
  if p.names.isEmpty then some .folder else (d.entries.find? (·.1 == p)).map (·.2)

/-- A disk with something else at a place. -/
def write (d : Disk) (p : Place) (e : Entry) : Disk :=
  ⟨(p, e) :: d.entries.filter fun old => old.1 != p⟩

/-- Whether a database stands at a place. -/
def hasDatabase (d : Disk) (p : Place) : Bool :=
  match d.entry? p with
  | some (.database _) => true
  | _ => false

/-- Whether a folder stands at a place. -/
def hasFolder (d : Disk) (p : Place) : Bool := d.entry? p == some .folder

/-- The database at a place, on a disk where it was made if it was not there. -/
def openDatabase (d : Disk) (p : Place) : Except DiskError (Database × Disk) :=
  match d.entry? p with
  | some (.database content) => .ok (content, d)
  | some .folder => .error .unopenable
  | none =>
      if d.hasFolder p.folder then .ok (.empty, d.write p (.database .empty))
      else .error .unopenable

/-- Make the folders of a way, outermost first. -/
def makeFolders (d : Disk) : List Place → Except DiskError Disk
  | [] => .ok d
  | p :: rest =>
      match d.entry? p with
      | some .folder => makeFolders d rest
      | some (.database _) => .error (if rest.isEmpty then .occupied else .notAFolder)
      | none => makeFolders (d.write p .folder) rest

end Disk

end RouteContract.Storage
