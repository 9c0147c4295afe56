import RouteContract.Registry.Generation
import RouteContract.Route.Lookup
import RouteContract.Storage.Store

/-!
# Registries

A registry holds the snapshot that requests are looked up in. The snapshot is generated from
sources, loaded from a store, or installed, and it is always replaced as a whole. A live registry
generates anew at every load.
-/

namespace RouteContract.Registry

set_option autoImplicit false

open RouteContract Storage

/-- How a registry is set up. -/
structure Config where
  store : Option Place
  sources : List String
  isLive : Bool
  /-- Whether a live registry loads like any other. -/
  isGenerationDisabled : Bool

/-- A registry and what it acts on: its snapshot, the disk, and the memory of the introspector. -/
structure State (σ : Type) where
  snapshot : Option Snapshot
  disk : Disk
  memory : σ

/-- Why a registry does not answer. -/
inductive RegistryError (ε : Type) where
  /-- No snapshot is there yet. -/
  | notLoaded
  /-- The registry has no store. -/
  | noStore
  | generation (e : GenerationError ε)
  | store (e : StoreError)

/-- What an operation of a registry does with the state. -/
abbrev Operation (σ ε α : Type) := ExceptT (RegistryError ε) (StateM (State σ)) α

variable {σ ε : Type}

/-- An answer that needs no state. -/
def ofResult {α : Type} (r : Except (RegistryError ε) α) : Operation σ ε α := fun s => (r, s)

/-- The snapshot that is there. -/
def current : Operation σ ε Snapshot := fun s =>
  (match s.snapshot with
    | some snapshot => .ok snapshot
    | none => .error .notLoaded, s)

/-- Put a snapshot in place. -/
def install (snapshot : Snapshot) : Operation σ ε PUnit := fun s =>
  (.ok ⟨⟩, { s with snapshot := some snapshot })

/-- The place of the store. -/
def Config.place (c : Config) : Operation σ ε Place :=
  ofResult (match c.store with
    | some p => .ok p
    | none => .error .noStore)

/-- An operation on the disk. -/
def onDisk {α : Type} (f : Disk → Except StoreError (α × Disk)) : Operation σ ε α := fun s =>
  match f s.disk with
  | .ok (x, disk) => (.ok x, { s with disk := disk })
  | .error e => (.error (.store e), s)

/-- Generate the snapshot of sources and put it in place. -/
def generateFrom (introspector : Introspector σ ε) (sources : List String) :
    Operation σ ε Snapshot := fun s =>
  match generate introspector sources s.memory with
  | (.ok snapshot, memory) => (.ok snapshot, { s with snapshot := some snapshot, memory := memory })
  | (.error e, memory) => (.error (.generation e), { s with memory := memory })

/-- Write a snapshot to the store, the present one where none is given; the number of routes is
answered. -/
def Config.persist (c : Config) (snapshot : Option Snapshot) : Operation σ ε Nat := do
  let p ← c.place
  let s ← match snapshot with
    | some s => pure s
    | none => current
  onDisk fun disk => replaceSnapshot disk p s

/-- Load the snapshot: from the store, or from the sources when the registry is live. -/
def Config.load (c : Config) (introspector : Introspector σ ε) : Operation σ ε Snapshot := do
  if c.isLive && !c.isGenerationDisabled then
    let s ← generateFrom introspector c.sources
    match c.store with
    | some p =>
        let _ ← onDisk fun disk => replaceSnapshot disk p s
        return s
    | none => return s
  else
    let p ← c.place
    let s ← onDisk fun disk => readSnapshot disk p
    install s
    return s

end RouteContract.Registry
