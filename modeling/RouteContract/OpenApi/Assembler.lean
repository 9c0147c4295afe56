import RouteContract.OpenApi.Document

/-!
# Assembling a document

An assembler makes the document of a snapshot once and keeps it until it is reset. Hooks may replace
the snapshot before and the document after, and each of them may refuse. A document that a hook has
replaced by null is not kept.
-/

namespace RouteContract.OpenApi

set_option autoImplicit false

open RouteContract Schema

/-- Why there is no document. -/
inductive AssemblyError (ε : Type) where
  /-- No snapshot is loaded. -/
  | notLoaded
  /-- A schema or the template is not usable. -/
  | fault (f : Fault)
  /-- A hook refused. -/
  | refused (e : ε)

/-- What a hook does with what it is given: it remembers something, and replaces it or refuses. -/
abbrev HookResult (σ ε α : Type) := ExceptT ε (StateM σ) α

/-- The hooks around a document, each list in the order in which it runs. -/
structure Hooks (σ ε : Type) where
  before : List (Snapshot → HookResult σ ε Snapshot)
  after : List (Snapshot → Json → HookResult σ ε Json)

/-- No hooks. -/
def Hooks.none {σ ε : Type} : Hooks σ ε := ⟨[], []⟩

/-- A template, and the document if one is kept. -/
structure Assembler where
  template : Json
  kept : Option Json

namespace Assembler

/-- The assembler of a template; null stands for the default one. -/
def ofTemplate (template : Json) : Assembler :=
  match template with
  | .null => ⟨defaultTemplate, none⟩
  | t => ⟨t, none⟩

/-- Forget the document. -/
def reset (a : Assembler) : Assembler := { a with kept := none }

/-- Run hooks, each on what the one before it has left. -/
def runHooks {σ ε α : Type} (hooks : List (α → HookResult σ ε α)) (x : α) :
    HookResult σ (AssemblyError ε) α :=
  hooks.foldlM (fun y hook s =>
    let (result, s) := hook y s
    (result.mapError AssemblyError.refused, s)) x

/-- A result without hooks. -/
def ofResult {σ ε α : Type} : Except (AssemblyError ε) α → HookResult σ (AssemblyError ε) α :=
  fun result s => (result, s)

/-- The assembler after a document was made. -/
def keep (a : Assembler) (document : Json) : Assembler :=
  match document with
  | .null => a
  | d => { a with kept := some d }

/-- The document, and the assembler that keeps it. -/
def getDocument {σ ε : Type} (a : Assembler) (hooks : Hooks σ ε) (snapshot : Option Snapshot) :
    HookResult σ (AssemblyError ε) (Assembler × Json) := do
  match a.kept with
  | some d => return (a, d)
  | none =>
      match snapshot with
      | none => ofResult (.error .notLoaded)
      | some s =>
          let s ← runHooks hooks.before s
          let made ← ofResult ((document a.template s).mapError .fault)
          let d ← runHooks (hooks.after.map (· s)) made
          return (a.keep d, d)

end Assembler

end RouteContract.OpenApi
