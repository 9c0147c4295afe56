import RouteContract.Data.Identity
import RouteContract.Exchange.Checking
import RouteContract.OpenApi.Assembler
import RouteContract.Route.Lookup
import RouteContract.Settings.Basic

/-!
# Guards

A guard stands between a server and its controllers. Before an action it checks the request and
hands on the coerced parts; after it, the response. A request keeps the action that was found for it
until it is released. Handlers are called around both checks and may change the messages and the
errors that are reported, or refuse.
-/

namespace RouteContract

set_option autoImplicit false

open Schema

/-! ## Events -/

/-- The moments at which handlers are called. -/
inductive Moment where
  | beforeRequestCheck
  | invalidRequest
  | afterRequestCheck
  | beforeResponseCheck
  | invalidResponse
  | afterResponseCheck
deriving Repr, DecidableEq

/-- What is at hand when handlers are called: the messages, the errors that are to be reported, and
what the handlers remember. There is no response while a request is checked. -/
structure Scene (σ : Type) where
  request : Request
  response : Option Response
  errors : Json
  memory : σ

/-- A handler is told the moment and the action. It may change the scene, or refuse. -/
abbrev Handler (σ ε : Type) := Moment → Action → ExceptT ε (StateM (Scene σ)) PUnit

/-! ## Guarding -/

/-- What a guard works with. -/
structure GuardSetup (σ ε : Type) where
  settings : Settings
  /-- The routes to look up actions in; none while nothing is loaded. -/
  snapshot : Option Snapshot
  /-- The handlers in the order in which they are called. -/
  handlers : List (Handler σ ε)

/-- What changes while a guard works: the actions found for requests, the scene, and the notices to
the operator. -/
structure GuardState (σ : Type) where
  pending : IdentityMemory (Option Action)
  scene : Scene σ
  notices : List String

/-- Why a guard does not let something pass. -/
inductive GuardError (ε : Type) where
  /-- Nothing is loaded. -/
  | notLoaded
  /-- A stored matcher is beyond every limit. -/
  | hugeCount
  /-- A schema is not usable. -/
  | fault (f : Fault)
  /-- A message breaks its contract: the status to answer with, and what is reported. -/
  | invalid (status : Int) (payload : Json)
  /-- A handler refused. -/
  | refused (e : ε)

/-- A part of the work of a guard. What was done before an error stays done. -/
abbrev Guarding (σ ε α : Type) := ExceptT (GuardError ε) (StateM (GuardState σ)) α

namespace Guard

variable {σ ε : Type}

/-- A result of checking. -/
def ofCheck {α : Type} (r : Except Fault α) : Guarding σ ε α := fun s => (r.mapError .fault, s)

/-- Tell the operator. -/
def notify (notices : List String) : Guarding σ ε PUnit := fun s =>
  (.ok ⟨⟩, { s with notices := s.notices ++ notices })

/-- The scene. -/
def scene : Guarding σ ε (Scene σ) := fun s => (.ok s.scene, s)

/-- Change the scene. -/
def changeScene (f : Scene σ → Scene σ) : Guarding σ ε PUnit := fun s =>
  (.ok ⟨⟩, { s with scene := f s.scene })

/-- Call one handler. -/
def call (handler : Handler σ ε) (moment : Moment) (a : Action) : Guarding σ ε PUnit := fun s =>
  let (r, scene) := handler moment a s.scene
  (r.mapError .refused, { s with scene := scene })

/-- Call all handlers, with the errors at hand; what they leave to be reported is answered. -/
def emit (g : GuardSetup σ ε) (moment : Moment) (a : Action) (errors : Json) :
    Guarding σ ε Json := do
  changeScene fun s => { s with errors := errors }
  g.handlers.forM fun handler => call handler moment a
  return (← scene).errors

/-- Forget the action that was found for a request. -/
def release (who : Identity) : Guarding σ ε PUnit := fun s =>
  (.ok ⟨⟩, { s with pending := s.pending.forget who })

/-- Remember the action that was found for a request. -/
def remember (who : Identity) (a : Option Action) : Guarding σ ε PUnit := fun s =>
  (.ok ⟨⟩, { s with pending := s.pending.put who a })

/-- The action that was found for a request before, if the request is remembered. -/
def remembered? (who : Identity) : Guarding σ ε (Option (Option Action)) := fun s =>
  (.ok (s.pending.get? who), s)

/-- Find the action for the request at hand. -/
def find (g : GuardSetup σ ε) : Guarding σ ε (Option Action) := do
  match g.snapshot with
  | none => throw .notLoaded
  | some snapshot =>
      let request := (← scene).request
      let found := Route.lookup snapshot request.method request.path
      notify (found.skipped.map Route.skippedNotice)
      match found.result with
      | .error _ => throw .hugeCount
      | .ok m => return m.map (·.entry.action)

/-- The action of a request: the one it was remembered with, or one that is found now. -/
def actionFor (g : GuardSetup σ ε) (who : Identity) : Guarding σ ε (Option Action) := do
  match ← remembered? who with
  | some a => return a
  | none =>
      let a ← find g
      remember who a
      return a

/-- Check a request before its action. The coerced parts take the place of what was sent; a request
that breaks the contract is refused. -/
def beforeAction (g : GuardSetup σ ε) (who : Identity) : Guarding σ ε (Option Action) := do
  match ← actionFor g who with
  | none => return none
  | some a =>
      if !(g.settings.checksRequests && a.validateInput) then return some a
      let _ ← emit g .beforeRequestCheck a .null
      let check ← ofCheck (a.checkRequest (← scene).request)
      if !check.isValid then
        let payload ← emit g .invalidRequest a (reportsJson check.reports)
        release who
        throw (.invalid 400 payload)
      changeScene fun s =>
        let request :=
          { s.request with body := check.body, params := check.params, query := check.query }
        { s with request := request }
      let _ ← emit g .afterRequestCheck a .null
      return some a

/-- A scene in which the response is changed. -/
def withResponse (f : Response → Response) (s : Scene σ) : Scene σ :=
  { s with response := s.response.map f }

/-- What the operator is told about a response that breaks its contract. -/
def responseNotice (a : Action) (payload : Json) : String :=
  "Response of " ++ a.name ++ " does not match its contract: " ++ payload.displayBare

/-- Check the response at hand after the action. -/
def checkResponse (g : GuardSetup σ ε) (a : Action) : Guarding σ ε PUnit := do
  let _ ← emit g .beforeResponseCheck a .null
  match (← scene).response with
  | none => return
  | some response =>
      let reports ← ofCheck (a.checkResponse response)
      if !reports.isEmpty then
        let payload ← emit g .invalidResponse a (reportsJson reports)
        if g.settings.refusesResponses then
          throw (.invalid g.settings.refusalStatus payload)
        notify [responseNotice a payload]
      let _ ← emit g .afterResponseCheck a .null

/-- Complete the response at hand with what the action returned, and check it. The request is not
remembered any longer. -/
def afterAction (g : GuardSetup σ ε) (who : Identity) (returned : Json) : Guarding σ ε PUnit := do
  let found ← actionFor g who
  release who
  match returned with
  | .null => pure ⟨⟩
  | value => changeScene (withResponse fun r => { r with body := value })
  match found with
  | none => return
  | some a =>
      changeScene (withResponse fun r => { r with status := a.statusCode })
      if g.settings.checksResponses && a.validateOutput then checkResponse g a

/-! ## The document -/

/-- Whether a path is the one under which the document is served. -/
def isDocumentPath (s : Settings) (path : String) : Bool :=
  s.servesDocument && Route.routedPart path == s.documentPath

end Guard

end RouteContract
