import Mathlib
import RouteContract.Proofs.Exchange.Guard
import RouteContract.Proofs.Schema.Report

/-!
# Requests are handed on whole or not at all

A guard checks the three parts of a request together. When the check refuses, none of them was
touched; when it does not, each was replaced by a coerced value that the schema accepts as it stands
(`beforeAction_replaces`). Coercion leaves such a value as it is, so checking the request once more
changes nothing. Handlers are called after the parts were replaced, too: one that refuses then
leaves the replaced parts behind (`late_refusal_replaces`).
-/

set_option autoImplicit false

namespace RouteContract

open Schema Json

/-! ## Checks of requests -/

theorem schema_of_compile {schema : Json} {c : Checker} (h : Checker.compile schema = .ok c) :
    c = ⟨schema⟩ := by
  obtain ⟨own, -, rfl⟩ := map_eq_ok_iff.1 h
  rfl

theorem ofAction_eq_ok {a : Action} {c : ActionCheckers} (h : ActionCheckers.ofAction a = .ok c) :
    c = ⟨⟨.obj a.params⟩, ⟨.obj a.query⟩, ⟨.obj a.body⟩, ⟨.obj a.returns⟩⟩ := by
  obtain ⟨params, first, h⟩ := bind_eq_ok_iff.1 h
  obtain ⟨query, second, h⟩ := bind_eq_ok_iff.1 h
  obtain ⟨body, third, h⟩ := bind_eq_ok_iff.1 h
  obtain ⟨response, fourth, h⟩ := bind_eq_ok_iff.1 h
  cases h
  rw [schema_of_compile first, schema_of_compile second, schema_of_compile third,
    schema_of_compile fourth]

/-- The outcomes for the three parts of a request. -/
structure PartOutcomes (a : Action) (r : Request) where
  body : Outcome
  params : Outcome
  query : Outcome
  checkedBody : Checker.check ⟨.obj a.body⟩ r.body = .ok body
  checkedParams : Checker.check ⟨.obj a.params⟩ r.params = .ok params
  checkedQuery : Checker.check ⟨.obj a.query⟩ r.query = .ok query

theorem checkRequest_eq_ok {a : Action} {r : Request} {check : RequestCheck}
    (h : a.checkRequest r = .ok check) : ∃ o : PartOutcomes a r,
      check = ⟨partReport "body" o.body ++ partReport "params" o.params ++
        partReport "query" o.query, o.body.value, o.params.value, o.query.value⟩ := by
  obtain ⟨c, compiled, h⟩ := bind_eq_ok_iff.1 h
  cases ofAction_eq_ok compiled
  obtain ⟨body, checkedBody, h⟩ := bind_eq_ok_iff.1 h
  obtain ⟨params, checkedParams, h⟩ := bind_eq_ok_iff.1 h
  obtain ⟨query, checkedQuery, h⟩ := bind_eq_ok_iff.1 h
  cases h
  exact ⟨⟨body, params, query, checkedBody, checkedParams, checkedQuery⟩, rfl⟩

/-- What becomes of a part of a message that keeps its contract: it is coerced, and the schema
accepts the coerced value as it stands. -/
structure HandedOn (schema : SchemaTable) (before after : Json) : Prop where
  coerced : coerce (.obj schema) before = .ok after
  accepted : Accepts (.obj schema) after
  /-- Without patterns, there is nothing at all wrong with the coerced value. -/
  plain : Lacks "patternProperties" (.obj schema) → violations (.obj schema) after = .ok []

theorem handedOn_iff_isValid {schema : SchemaTable} {v : Json} {o : Outcome}
    (h : Checker.check ⟨.obj schema⟩ v = .ok o) : o.isValid = true ↔ HandedOn schema v o.value := by
  rw [isValid_iff_accepts h]
  constructor
  · intro accepted
    exact ⟨(check_eq_ok_iff.1 h).1, accepted, fun plain =>
      (accepts_iff_of_lacks_patterns plain).1 accepted⟩
  · intro handedOn
    exact handedOn.accepted

/-- What becomes of a request that keeps the contract of its action: all three parts are handed on.
-/
structure Replaced (a : Action) (before after : Request) : Prop where
  method : after.method = before.method
  path : after.path = before.path
  body : HandedOn a.body before.body after.body
  params : HandedOn a.params before.params after.params
  query : HandedOn a.query before.query after.query

theorem partReport_eq_nil_iff {source : String} {o : Outcome} :
    partReport source o = [] ↔ o.isValid = true := by
  rw [partReport]
  cases o.isValid <;> simp

section Check

open Guard

variable {a : Action} {r after : Request} {check : RequestCheck}

/-- A check finds a request valid exactly when it hands all three parts on. -/
theorem isValid_iff_replaced (h : a.checkRequest r = .ok check) :
    check.isValid = true ↔ Replaced a r (withParts check r) := by
  obtain ⟨o, rfl⟩ := checkRequest_eq_ok h
  have body := handedOn_iff_isValid o.checkedBody
  have params := handedOn_iff_isValid o.checkedParams
  have query := handedOn_iff_isValid o.checkedQuery
  rw [RequestCheck.isValid, List.isEmpty_iff, List.append_eq_nil_iff, List.append_eq_nil_iff,
    partReport_eq_nil_iff, partReport_eq_nil_iff, partReport_eq_nil_iff, body, params, query]
  constructor
  · rintro ⟨⟨body, params⟩, query⟩
    exact ⟨rfl, rfl, body, params, query⟩
  · intro replaced
    exact ⟨⟨replaced.body, replaced.params⟩, replaced.query⟩

/-- There is one request that a request can be replaced by. -/
theorem eq_of_replaced (h : a.checkRequest r = .ok check) (replaced : Replaced a r after) :
    after = withParts check r := by
  obtain ⟨o, rfl⟩ := checkRequest_eq_ok h
  have body := (check_eq_ok_iff.1 o.checkedBody).1
  have params := (check_eq_ok_iff.1 o.checkedParams).1
  have query := (check_eq_ok_iff.1 o.checkedQuery).1
  rw [replaced.body.coerced] at body
  rw [replaced.params.coerced] at params
  rw [replaced.query.coerced] at query
  obtain ⟨method, path, afterBody, afterParams, afterQuery⟩ := after
  cases body
  cases params
  cases query
  cases replaced.method
  cases replaced.path
  rfl

/-- Checking a request with the parts that a check has handed on comes to the same. -/
theorem checkRequest_again (h : a.checkRequest r = .ok check) :
    a.checkRequest (withParts check r) = .ok check := by
  obtain ⟨c, compiled, checked⟩ := bind_eq_ok_iff.1 h
  obtain ⟨o, rfl⟩ := checkRequest_eq_ok h
  cases ofAction_eq_ok compiled
  exact bind_eq_ok_iff.2 ⟨_, compiled,
    bind_eq_ok_iff.2 ⟨_, check_again o.checkedBody,
      bind_eq_ok_iff.2 ⟨_, check_again o.checkedParams,
        bind_eq_ok_iff.2 ⟨_, check_again o.checkedQuery, rfl⟩⟩⟩⟩

end Check

/-! ## Requests at a guard -/

namespace Guard

variable {σ ε : Type} {g : GuardSetup σ ε} {who : Identity} {a : Action} {s s' u : GuardState σ}

theorem request_of_emit (leave : Leave g.handlers Scene.request) {moment : Moment} {errors : Json}
    {r : Except (GuardError ε) Json} (run : emit g moment a errors s = (r, s')) :
    s'.scene.request = s.scene.request :=
  (called_emit run).leaves Scene.request (fun _ _ => rfl) leave

theorem request_of_reachesCheck (leave : Leave g.handlers Scene.request)
    (reaches : ReachesCheck g who s a u) : u.scene.request = s.scene.request := by
  obtain ⟨t, lookup, -, payload, called⟩ := reaches
  rw [request_of_emit leave called, (resolved_actionFor lookup).scene]

/-- The handlers before a check leave the request remembered with its action. -/
theorem remembered_of_reachesCheck (reaches : ReachesCheck g who s a u) :
    u.pending.get? who = some (some a) := by
  obtain ⟨t, lookup, -, payload, called⟩ := reaches
  rw [(called_emit called).pending]
  exact (resolved_actionFor lookup).remembers _ rfl

theorem action_of_reachesCheck {a' : Action} (resolves : (actionFor g who s).1 = .ok (some a))
    (reaches : ReachesCheck g who s a' u) : a' = a := by
  obtain ⟨t, lookup, -⟩ := reaches
  rw [lookup] at resolves
  cases resolves
  rfl

/-- After a check that finds nothing, the request is the one that the check hands on. -/
theorem request_of_afterCheck (leave : Leave g.handlers Scene.request) {check : RequestCheck}
    {r : Except (GuardError ε) Json} (reaches : ReachesCheck g who s a u)
    (called : emit g .afterRequestCheck a .null (withRequest (withParts check) u) = (r, s')) :
    s'.scene.request = withParts check s.scene.request := by
  have request := request_of_emit leave called
  rw [withRequest, request_of_reachesCheck leave reaches] at request
  exact request

/-- **A guard checks what it has handed on and changes nothing**: where the parts of a request are
those that a check hands on, the request passes unless a handler refuses. -/
theorem beforeAction_again {r : Except (GuardError ε) (Option Action)} {check : RequestCheck}
    (leave : Leave g.handlers Scene.request) (known : s.pending.get? who = some (some a))
    (on : ChecksRequestsTo g a) (checked : a.checkRequest s.scene.request = .ok check)
    (valid : check.isValid = true)
    (kept : withParts check s.scene.request = s.scene.request)
    (run : beforeAction g who s = (r, s')) :
    s'.scene.request = s.scene.request ∧
      (r = .ok (some a) ∨
        ∃ moment ∈ [Moment.beforeRequestCheck, .afterRequestCheck], ∃ e,
          r = .error e ∧ MayRefuse g.handlers moment a e) := by
  have lookedUp := actionFor_of_remembered g known
  have resolves : (actionFor g who s).1 = .ok (some a) := by rw [lookedUp]
  have same {u : GuardState σ} (reaches : ReachesCheck g who s a u) :
      a.checkRequest u.scene.request = .ok check := by
    rw [request_of_reachesCheck leave reaches, checked]
  cases before_of_run run with
  | lost lookup | unknown lookup =>
      rw [lookedUp] at lookup
      cases lookup
  | unchecked lookup off =>
      rw [lookedUp] at lookup
      cases lookup
      exact absurd on off
  | refusedBefore lookup _ called =>
      rw [lookedUp] at lookup
      cases lookup
      refine ⟨request_of_emit leave called, .inr ⟨_, List.mem_cons_self .., _, rfl, ?_⟩⟩
      exact (called_emit called).refuses _ rfl
  | faulty reaches fault =>
      cases action_of_reachesCheck resolves reaches
      rw [same reaches] at fault
      cases fault
  | refusedInvalid reaches other isInvalid | invalid reaches other isInvalid =>
      cases action_of_reachesCheck resolves reaches
      rw [same reaches] at other
      cases other
      rw [valid] at isInvalid
      cases isInvalid
  | refusedAfter reaches other _ called =>
      cases action_of_reachesCheck resolves reaches
      rw [same reaches] at other
      cases other
      have request := request_of_afterCheck leave reaches called
      rw [kept] at request
      exact ⟨request, .inr ⟨_, List.mem_cons_of_mem _ (List.mem_cons_self ..), _, rfl,
        (called_emit called).refuses _ rfl⟩⟩
  | passed reaches other _ called =>
      cases action_of_reachesCheck resolves reaches
      rw [same reaches] at other
      cases other
      have request := request_of_afterCheck leave reaches called
      rw [kept] at request
      exact ⟨request, .inl rfl⟩

/-- **A request is handed on whole or not at all**, by handlers that leave it alone. An error leaves
it as it was, unless a handler refused after the check; the check itself refuses with status 400,
and only what cannot be handed on. Otherwise the action is answered, each part is replaced by a
coerced value that its schema accepts as it stands, and a second run leaves it so. -/
theorem beforeAction_replaces {r : Except (GuardError ε) (Option Action)}
    (leave : Leave g.handlers Scene.request) (resolves : (actionFor g who s).1 = .ok (some a))
    (on : ChecksRequestsTo g a) (run : beforeAction g who s = (r, s')) :
    (∀ e, r = .error e →
      s'.scene.request = s.scene.request ∨
        MayRefuse g.handlers .afterRequestCheck a e ∧
          Replaced a s.scene.request s'.scene.request) ∧
    (∀ status payload, r = .error (.invalid status payload) →
      status = 400 ∧ s'.scene.request = s.scene.request ∧
        ¬ ∃ after, Replaced a s.scene.request after) ∧
    ∀ found, r = .ok found →
      found = some a ∧ Replaced a s.scene.request s'.scene.request ∧
        ∀ again s'', beforeAction g who s' = (again, s'') →
          s''.scene.request = s'.scene.request ∧
            (again = .ok (some a) ∨
              ∃ moment ∈ [Moment.beforeRequestCheck, .afterRequestCheck], ∃ e,
                again = .error e ∧ MayRefuse g.handlers moment a e) := by
  cases before_of_run run with
  | lost lookup | unknown lookup =>
      rw [lookup] at resolves
      cases resolves
  | unchecked lookup off =>
      rw [lookup] at resolves
      cases resolves
      exact absurd on off
  | refusedBefore lookup _ called =>
      have request : s'.scene.request = s.scene.request := by
        rw [request_of_emit leave called, (resolved_actionFor lookup).scene]
      obtain ⟨handler, -, scene, refusal, -, rfl⟩ := (called_emit called).refuses _ rfl
      exact ⟨fun _ _ => .inl request, nofun, nofun⟩
  | faulty reaches fault =>
      exact ⟨fun _ _ => .inl (request_of_reachesCheck leave reaches), nofun, nofun⟩
  | refusedInvalid reaches checked isInvalid called =>
      have request : s'.scene.request = s.scene.request := by
        rw [request_of_emit leave called, request_of_reachesCheck leave reaches]
      obtain ⟨handler, -, scene, refusal, -, rfl⟩ := (called_emit called).refuses _ rfl
      exact ⟨fun _ _ => .inl request, nofun, nofun⟩
  | @invalid a' u w check payload reaches checked isInvalid called =>
      cases action_of_reachesCheck resolves reaches
      have before := request_of_reachesCheck leave reaches
      have request : w.scene.request = s.scene.request := by
        rw [request_of_emit leave called, before]
      refine ⟨fun _ _ => .inl request, ?_, nofun⟩
      rintro _ _ ⟨⟩
      refine ⟨rfl, request, ?_⟩
      rintro ⟨after, replaced⟩
      rw [before] at checked
      rw [eq_of_replaced checked replaced, ← isValid_iff_replaced checked, isInvalid] at replaced
      cases replaced
  | refusedAfter reaches checked valid called =>
      cases action_of_reachesCheck resolves reaches
      have request := request_of_afterCheck leave reaches called
      rw [request_of_reachesCheck leave reaches] at checked
      have refuses := (called_emit called).refuses _ rfl
      have replaced : Replaced a s.scene.request s'.scene.request :=
        request ▸ (isValid_iff_replaced checked).1 valid
      refine ⟨?_, ?_, nofun⟩
      · rintro _ ⟨⟩
        exact .inr ⟨refuses, replaced⟩
      · obtain ⟨handler, -, scene, refusal, -, rfl⟩ := refuses
        exact nofun
  | @passed a' u w check payload reaches checked valid called =>
      cases action_of_reachesCheck resolves reaches
      have kept : s'.pending = u.pending := (called_emit called).pending
      have known : s'.pending.get? who = some (some a) := by
        rw [kept, remembered_of_reachesCheck reaches]
      have request := request_of_afterCheck leave reaches called
      rw [request_of_reachesCheck leave reaches] at checked
      refine ⟨nofun, nofun, ?_⟩
      rintro _ ⟨⟩
      refine ⟨rfl, request ▸ (isValid_iff_replaced checked).1 valid, fun again s'' more => ?_⟩
      have checkedAgain : a.checkRequest s'.scene.request = .ok check :=
        request ▸ checkRequest_again checked
      exact beforeAction_again leave known on checkedAgain valid (by rw [request]; rfl) more

/-! ## A handler that refuses late -/

section LateRefusal

/-- Settings under which everything is checked and responses are refused. -/
def checkingSettings : Settings :=
  { environment := .production, logLevel := "INFO", sources := [], store := .ofText ":memory:",
    isGenerationDisabled := false, servesDocument := true, documentPath := "/openapi.json",
    title := "REST API", version := "1.0.0", checksRequests := true, checksResponses := true,
    refusesResponses := true, refusalStatus := 500 }

/-- An action whose query has a page number. -/
def pagesAction : Action :=
  { name := "items", owner := none, operationId := none, description := none,
    returnDescription := none, statusCode := 200, validateInput := true, validateOutput := true,
    params := []
    query := [("type", .str "object"),
      ("properties", .obj [("page", .obj [("type", .str "number")])])]
    body := [], returns := [], errors := [] }

/-- A handler that refuses with a status after checks of requests, from a number of calls on. -/
def refuseLate (calls : Nat) : Handler Nat Int := fun moment _ scene =>
  if moment = .afterRequestCheck then
    (if scene.memory < calls then .ok ⟨⟩ else .error 400, { scene with memory := scene.memory + 1 })
  else (.ok ⟨⟩, scene)

theorem leave_refuseLate (calls : Nat) : Leave [refuseLate calls] Scene.request := by
  intro handler mem moment a scene
  cases List.mem_singleton.1 mem
  rw [refuseLate]
  split <;> rfl

/-- A guard of that action with such a handler. -/
def pagesGuard (calls : Nat) : GuardSetup Nat Int :=
  { settings := checkingSettings
    snapshot := some ⟨[("get", [⟨"/^/items/?$/i", "/items", pagesAction⟩])]⟩
    handlers := [refuseLate calls] }

/-- The guard with a request for a page at hand. -/
def pagesState : GuardState Nat :=
  ⟨.empty, ⟨⟨"get", "/items", .null, .obj [], .obj [("page", .str "2")]⟩, none, .null, 0⟩, []⟩

/-- The request for a page. -/
def pagesRequest : Identity := ⟨0, 0⟩

/-- With a handler that lets the first call pass, the request for a page is handed on. -/
theorem pagesGuard_replaces :
    Leave (pagesGuard 1).handlers Scene.request ∧
      (actionFor (pagesGuard 1) pagesRequest pagesState).1 = .ok (some pagesAction) ∧
      ChecksRequestsTo (pagesGuard 1) pagesAction ∧
      ∃ s', beforeAction (pagesGuard 1) pagesRequest pagesState = (.ok (some pagesAction), s') ∧
        Replaced pagesAction pagesState.scene.request s'.scene.request := by
  have leave := leave_refuseLate 1
  have resolves : (actionFor (pagesGuard 1) pagesRequest pagesState).1 =
      .ok (some pagesAction) := by cbv
  have on : ChecksRequestsTo (pagesGuard 1) pagesAction := ⟨rfl, rfl⟩
  have passes : (beforeAction (pagesGuard 1) pagesRequest pagesState).1 =
      .ok (some pagesAction) := by cbv
  refine ⟨leave, resolves, on, _, Prod.ext passes rfl, ?_⟩
  exact ((beforeAction_replaces leave resolves on (Prod.ext passes rfl)).2.2 _ rfl).2.1

/-- A handler that leaves requests alone may still refuse with status 400 after the parts were
replaced, at the first call or at the second one; the parts that were sent are gone then. -/
theorem late_refusal_replaces :
    Leave (pagesGuard 0).handlers Scene.request ∧ ChecksRequestsTo (pagesGuard 0) pagesAction ∧
      (beforeAction (pagesGuard 0) pagesRequest pagesState).1 = .error (.refused 400) ∧
      pagesState.scene.request.query = .obj [("page", .str "2")] ∧
      (beforeAction (pagesGuard 0) pagesRequest pagesState).2.scene.request.query =
        .obj [("page", .int 2)] ∧
      (beforeAction (pagesGuard 1) pagesRequest pagesState).1 = .ok (some pagesAction) ∧
      (beforeAction (pagesGuard 1) pagesRequest
        (beforeAction (pagesGuard 1) pagesRequest pagesState).2).1 = .error (.refused 400) := by
  refine ⟨leave_refuseLate 0, ⟨rfl, rfl⟩, ?_, rfl, ?_, ?_, ?_⟩
  · cbv
  · cbv
  · cbv
  · cbv

end LateRefusal

end Guard

end RouteContract
