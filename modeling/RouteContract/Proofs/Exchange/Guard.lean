import RouteContract.Exchange.Guard
import RouteContract.Proofs.Data.Result

/-!
# What a guard does

The runs of a guard around an action are told apart once, by how far they come: `Before` for a
request and `After` for a response say everything that can happen, each case with the states in
between. Handlers see the scene only (`called_emit`), and looking an action up does not concern it
(`resolved_actionFor`).
-/

set_option autoImplicit false

namespace RouteContract.Guard

open Schema

variable {σ ε α β : Type}

/-! ## Single steps -/

theorem run_throw (e : GuardError ε) (s : GuardState σ) :
    (throw e : Guarding σ ε α) s = (.error e, s) := rfl

theorem run_changeScene (f : Scene σ → Scene σ) (s : GuardState σ) :
    changeScene f s =
      ((.ok ⟨⟩, { s with scene := f s.scene }) : Except (GuardError ε) PUnit × GuardState σ) := rfl

theorem run_scene (s : GuardState σ) :
    scene s = ((.ok s.scene, s) : Except (GuardError ε) (Scene σ) × GuardState σ) := rfl

theorem run_remembered? (who : Identity) (s : GuardState σ) :
    remembered? who s = ((.ok (s.pending.get? who), s) :
      Except (GuardError ε) (Option (Option Action)) × GuardState σ) := rfl

theorem run_ofCheck_ok {checked : Except Fault α} {a : α} (h : checked = .ok a)
    (s : GuardState σ) :
    ofCheck checked s = ((.ok a, s) : Except (GuardError ε) α × GuardState σ) := by
  rw [h]
  rfl

theorem run_ofCheck_error {checked : Except Fault α} {f : Fault} (h : checked = .error f)
    (s : GuardState σ) :
    ofCheck checked s = ((.error (.fault f), s) : Except (GuardError ε) α × GuardState σ) := by
  rw [h]
  rfl

theorem run_release (who : Identity) (s : GuardState σ) :
    release who s = ((.ok ⟨⟩, { s with pending := s.pending.forget who }) :
      Except (GuardError ε) PUnit × GuardState σ) := rfl

theorem run_notify (notices : List String) (s : GuardState σ) :
    notify notices s = ((.ok ⟨⟩, { s with notices := s.notices ++ notices }) :
      Except (GuardError ε) PUnit × GuardState σ) := rfl

/-! ## Handlers -/

/-- An error with which one of several handlers refuses at a moment. -/
def MayRefuse (handlers : List (Handler σ ε)) (moment : Moment) (a : Action) (e : GuardError ε) :
    Prop :=
  ∃ handler ∈ handlers, ∃ scene refusal,
    (handler moment a scene).1 = .error refusal ∧ e = .refused refusal

theorem MayRefuse.ne_invalid {handlers : List (Handler σ ε)} {moment : Moment} {a : Action}
    {e : GuardError ε} (h : MayRefuse handlers moment a e) (status : Int) (payload : Json) :
    e ≠ .invalid status payload := by
  obtain ⟨handler, -, scene, refusal, -, rfl⟩ := h
  exact nofun

/-- Handlers leave what a function reads off the scene. -/
def Leave (handlers : List (Handler σ ε)) (f : Scene σ → α) : Prop :=
  ∀ handler ∈ handlers, ∀ (moment : Moment) (a : Action) (scene : Scene σ),
    f (handler moment a scene).2 = f scene

/-- What calling handlers comes to: nothing changes but the scene, there only what a handler
changes, and it is a handler that refuses. -/
structure Called (handlers : List (Handler σ ε)) (moment : Moment) (a : Action)
    (s : GuardState σ) (r : Except (GuardError ε) α) (s' : GuardState σ) : Prop where
  pending : s'.pending = s.pending
  notices : s'.notices = s.notices
  leaves : ∀ {γ : Type} (f : Scene σ → γ),
    (∀ scene errors, f { scene with errors := errors } = f scene) → Leave handlers f →
      f s'.scene = f s.scene
  refuses : ∀ e, r = .error e → MayRefuse handlers moment a e

theorem called_forM {handlers : List (Handler σ ε)} {moment : Moment} {a : Action}
    {s s' : GuardState σ} {r : Except (GuardError ε) PUnit}
    (run : (handlers.forM fun handler => call handler moment a) s = (r, s')) :
    Called handlers moment a s r s' := by
  induction handlers generalizing s with
  | nil =>
      cases run
      exact ⟨rfl, rfl, fun _ _ _ => rfl, nofun⟩
  | cons handler rest ih =>
      have first : call handler moment a s =
          ((handler moment a s.scene).1.mapError .refused,
            { s with scene := (handler moment a s.scene).2 }) := rfl
      cases answer : (handler moment a s.scene).1 with
      | error refusal =>
          rw [answer] at first
          have failed := run_bind_error first fun _ =>
            rest.forM fun handler => call handler moment a
          change (call handler moment a >>= _) s = _ at run
          rw [failed] at run
          cases run
          refine ⟨rfl, rfl, fun f _ leave => leave handler (List.mem_cons_self ..) _ _ _, ?_⟩
          rintro e ⟨⟩
          exact ⟨handler, List.mem_cons_self .., s.scene, refusal, answer, rfl⟩
      | ok done =>
          rw [answer] at first
          have next := run_bind_ok first fun _ =>
            rest.forM fun handler => call handler moment a
          change (call handler moment a >>= _) s = _ at run
          rw [next] at run
          have later := ih run
          refine ⟨later.pending, later.notices, fun f errors leave => ?_, fun e same => ?_⟩
          · have before := leave handler (List.mem_cons_self ..) moment a s.scene
            rw [later.leaves f errors fun other mem => leave other (List.mem_cons_of_mem _ mem)]
            exact before
          · obtain ⟨other, mem, found⟩ := later.refuses e same
            exact ⟨other, List.mem_cons_of_mem _ mem, found⟩

/-- **Calling handlers** changes nothing but the scene. -/
theorem called_emit {g : GuardSetup σ ε} {moment : Moment} {a : Action} {errors : Json}
    {s s' : GuardState σ} {r : Except (GuardError ε) Json}
    (run : emit g moment a errors s = (r, s')) : Called g.handlers moment a s r s' := by
  rw [emit, run_bind_ok (run_changeScene ..), run_bind] at run
  split at run
  · next t done =>
      cases run
      have called := called_forM done
      exact ⟨called.pending, called.notices,
        fun f errors leave => (called.leaves f errors leave).trans (errors ..), nofun⟩
  · next e t failed =>
      cases run
      have called := called_forM failed
      refine ⟨called.pending, called.notices,
        fun f errors leave => (called.leaves f errors leave).trans (errors ..), ?_⟩
      rintro _ ⟨⟩
      exact called.refuses e rfl

/-! ## Looking up -/

/-- The route that is looked up for the request at hand. -/
def lookupFor (snapshot : Snapshot) (s : GuardState σ) : Route.Lookup :=
  Route.lookup snapshot s.scene.request.method s.scene.request.path

/-- A state after the operator was told of routes that were skipped. -/
def withSkipped (looked : Route.Lookup) (s : GuardState σ) : GuardState σ :=
  { s with notices := s.notices ++ looked.skipped.map Route.skippedNotice }

/-- **All runs of finding an action.** -/
inductive Found (g : GuardSetup σ ε) (s : GuardState σ) :
    Except (GuardError ε) (Option Action) → GuardState σ → Prop where
  | notLoaded (nothing : g.snapshot = none) : Found g s (.error .notLoaded) s
  | hugeCount {snapshot : Snapshot} {e : Route.HugeCount} (loaded : g.snapshot = some snapshot)
      (looked : (lookupFor snapshot s).result = .error e) :
      Found g s (.error .hugeCount) (withSkipped (lookupFor snapshot s) s)
  | answered {snapshot : Snapshot} {found : Option Route.Match}
      (loaded : g.snapshot = some snapshot) (looked : (lookupFor snapshot s).result = .ok found) :
      Found g s (.ok (found.map (·.entry.action))) (withSkipped (lookupFor snapshot s) s)

section Finding

variable {g : GuardSetup σ ε} {who : Identity} {s s' : GuardState σ}
  {r : Except (GuardError ε) (Option Action)}

theorem found_of_run (run : find g s = (r, s')) : Found g s r s' := by
  rw [find] at run
  cases loaded : g.snapshot with
  | none =>
      rw [loaded] at run
      cases run
      exact .notLoaded loaded
  | some snapshot =>
      rw [loaded] at run
      change (scene >>= _) s = _ at run
      rw [run_bind_ok (run_scene s)] at run
      change (notify _ >>= _) s = _ at run
      rw [run_bind_ok (run_notify ..)] at run
      cases looked : (lookupFor snapshot s).result with
      | error e =>
          rw [lookupFor] at looked
          rw [looked] at run
          cases run
          exact .hugeCount loaded looked
      | ok found =>
          rw [lookupFor] at looked
          rw [looked] at run
          cases run
          exact .answered loaded looked

/-- Finding an action concerns the notices only. -/
theorem find_run (run : find g s = (r, s')) :
    s'.scene = s.scene ∧ s'.pending = s.pending := by
  cases found_of_run run with
  | notLoaded nothing => exact ⟨rfl, rfl⟩
  | hugeCount loaded looked | answered loaded looked => exact ⟨rfl, rfl⟩

theorem actionFor_of_remembered (g : GuardSetup σ ε) {found : Option Action}
    (known : s.pending.get? who = some found) : actionFor g who s = (.ok found, s) := by
  rw [actionFor, run_bind_ok (run_remembered? who s), known]
  rfl

/-- An action that is not remembered is found now, and remembered from now on. -/
theorem actionFor_of_unknown (g : GuardSetup σ ε) (unknown : s.pending.get? who = none) :
    actionFor g who s =
      match find g s with
      | (.ok a, t) => (.ok a, { t with pending := t.pending.put who a })
      | (.error e, t) => (.error e, t) := by
  rw [actionFor, run_bind_ok (run_remembered? who s), unknown]
  change (find g >>= _ : Guarding σ ε (Option Action)) s = _
  rw [run_bind]
  rcases find g s with ⟨_ | _, t⟩
  · rfl
  · rfl

/-- Looking an action up does not concern the scene, and what is found is remembered. -/
structure Resolved (who : Identity) (s : GuardState σ)
    (r : Except (GuardError ε) (Option Action)) (s' : GuardState σ) : Prop where
  scene : s'.scene = s.scene
  remembers : ∀ found, r = .ok found → s'.pending.get? who = some found

theorem resolved_actionFor (run : actionFor g who s = (r, s')) : Resolved who s r s' := by
  cases known : s.pending.get? who with
  | some found =>
      rw [actionFor_of_remembered g known] at run
      cases run
      refine ⟨rfl, ?_⟩
      rintro _ ⟨⟩
      exact known
  | none =>
      rw [actionFor_of_unknown g known] at run
      rcases done : find g s with ⟨_ | found, t⟩
      · rw [done] at run
        cases run
        exact ⟨(find_run done).1, nofun⟩
      · rw [done] at run
        cases run
        refine ⟨(find_run done).1, ?_⟩
        rintro _ ⟨⟩
        exact IdentityMemory.get?_put_self ..

end Finding

/-! ## Before an action -/

/-- Whether requests to an action are checked. -/
def ChecksRequestsTo (g : GuardSetup σ ε) (a : Action) : Prop :=
  g.settings.checksRequests = true ∧ a.validateInput = true

/-- A request with its three parts replaced by those that a check hands on. -/
def withParts (check : RequestCheck) (r : Request) : Request :=
  { r with body := check.body, params := check.params, query := check.query }

/-- A state with another request at hand. -/
def withRequest (f : Request → Request) (s : GuardState σ) : GuardState σ :=
  { s with scene := { s.scene with request := f s.scene.request } }

section Before

variable (g : GuardSetup σ ε) (who : Identity)

/-- An action was found, its requests are checked, and the handlers that are called before the check
let the request pass: the state at which the check is made. -/
def ReachesCheck (s : GuardState σ) (a : Action) (u : GuardState σ) : Prop :=
  ∃ t, actionFor g who s = (.ok (some a), t) ∧ ChecksRequestsTo g a ∧
    ∃ payload, emit g .beforeRequestCheck a .null t = (.ok payload, u)

/-- **All runs before an action**, by how far they come. -/
inductive Before (s : GuardState σ) :
    Except (GuardError ε) (Option Action) → GuardState σ → Prop where
  | lost {e : GuardError ε} {t : GuardState σ} (lookup : actionFor g who s = (.error e, t)) :
      Before s (.error e) t
  | unknown {t : GuardState σ} (lookup : actionFor g who s = (.ok none, t)) : Before s (.ok none) t
  | unchecked {a : Action} {t : GuardState σ} (lookup : actionFor g who s = (.ok (some a), t))
      (off : ¬ ChecksRequestsTo g a) : Before s (.ok (some a)) t
  | refusedBefore {a : Action} {t u : GuardState σ} {e : GuardError ε}
      (lookup : actionFor g who s = (.ok (some a), t)) (on : ChecksRequestsTo g a)
      (called : emit g .beforeRequestCheck a .null t = (.error e, u)) : Before s (.error e) u
  | faulty {a : Action} {u : GuardState σ} {f : Fault} (reaches : ReachesCheck g who s a u)
      (checked : a.checkRequest u.scene.request = .error f) : Before s (.error (.fault f)) u
  | refusedInvalid {a : Action} {u w : GuardState σ} {check : RequestCheck} {e : GuardError ε}
      (reaches : ReachesCheck g who s a u) (checked : a.checkRequest u.scene.request = .ok check)
      (isInvalid : check.isValid = false)
      (called : emit g .invalidRequest a (reportsJson check.reports) u = (.error e, w)) :
      Before s (.error e) w
  | invalid {a : Action} {u w : GuardState σ} {check : RequestCheck} {payload : Json}
      (reaches : ReachesCheck g who s a u) (checked : a.checkRequest u.scene.request = .ok check)
      (isInvalid : check.isValid = false)
      (called : emit g .invalidRequest a (reportsJson check.reports) u = (.ok payload, w)) :
      Before s (.error (.invalid 400 payload)) { w with pending := w.pending.forget who }
  | refusedAfter {a : Action} {u w : GuardState σ} {check : RequestCheck} {e : GuardError ε}
      (reaches : ReachesCheck g who s a u) (checked : a.checkRequest u.scene.request = .ok check)
      (isValid : check.isValid = true)
      (called : emit g .afterRequestCheck a .null (withRequest (withParts check) u) =
        (.error e, w)) : Before s (.error e) w
  | passed {a : Action} {u w : GuardState σ} {check : RequestCheck} {payload : Json}
      (reaches : ReachesCheck g who s a u) (checked : a.checkRequest u.scene.request = .ok check)
      (isValid : check.isValid = true)
      (called : emit g .afterRequestCheck a .null (withRequest (withParts check) u) =
        (.ok payload, w)) : Before s (.ok (some a)) w

variable {g who}

section Checked

variable {s s' u : GuardState σ} {a : Action} {check : RequestCheck}
  {r : Except (GuardError ε) (Option Action)} (reaches : ReachesCheck g who s a u)
  (checked : a.checkRequest u.scene.request = .ok check)
include reaches checked

/-- What follows the check of a request that breaks the contract. -/
theorem before_of_invalid (isInvalid : check.isValid = false) {never : Guarding σ ε (Option Action)}
    (run : (do
      let payload ← emit g .invalidRequest a (reportsJson check.reports)
      release who
      let _ ← (throw (GuardError.invalid 400 payload) : Guarding σ ε PUnit)
      never) u = (r, s')) : Before g who s r s' := by
  rw [run_bind] at run
  split at run
  · next payload w called =>
      rw [run_bind_ok (run_release ..), run_bind_error (run_throw ..)] at run
      cases run
      exact .invalid reaches checked isInvalid called
  · next e w called =>
      cases run
      exact .refusedInvalid reaches checked isInvalid called

/-- What follows the check of a request that keeps the contract. -/
theorem before_of_valid (isValid : check.isValid = true)
    (run : (do
      let _ ← emit g .afterRequestCheck a .null
      return some a) (withRequest (withParts check) u) = (r, s')) : Before g who s r s' := by
  rw [run_bind] at run
  split at run
  · next payload w called =>
      cases run
      exact .passed reaches checked isValid called
  · next e w called =>
      cases run
      exact .refusedAfter reaches checked isValid called

end Checked

theorem before_of_run {s s' : GuardState σ} {r : Except (GuardError ε) (Option Action)}
    (run : beforeAction g who s = (r, s')) : Before g who s r s' := by
  rw [beforeAction, run_bind] at run
  split at run
  · next found t lookup =>
      cases found with
      | none =>
          cases run
          exact .unknown lookup
      | some a =>
          by_cases on : ChecksRequestsTo g a
          · simp only [on.1, on.2, Bool.and_true, Bool.not_true, Bool.false_eq_true,
              if_false] at run
            rw [run_bind] at run
            split at run
            · next payload u called =>
                have reaches : ReachesCheck g who s a u := ⟨t, lookup, on, payload, called⟩
                rw [run_bind_ok (run_scene u)] at run
                cases checked : a.checkRequest u.scene.request with
                | error f =>
                    rw [run_bind_error (run_ofCheck_error checked u)] at run
                    cases run
                    exact .faulty reaches checked
                | ok check =>
                    rw [run_bind_ok (run_ofCheck_ok checked u)] at run
                    cases valid : check.isValid with
                    | false =>
                        simp only [valid, Bool.not_false, if_true] at run
                        exact before_of_invalid reaches checked valid run
                    | true =>
                        simp only [valid, Bool.not_true, Bool.false_eq_true, if_false] at run
                        rw [run_bind_ok (run_changeScene ..)] at run
                        exact before_of_valid reaches checked valid run
            · next e u called =>
                cases run
                exact .refusedBefore lookup on called
          · have off : (g.settings.checksRequests && a.validateInput) = false := by
              rw [Bool.eq_false_iff, Ne, Bool.and_eq_true]
              exact on
            simp only [off, Bool.not_false, if_true] at run
            cases run
            exact .unchecked lookup on
  · next e t lookup =>
      cases run
      exact .lost lookup

end Before

/-! ## After an action -/

/-- Whether responses of an action are checked. -/
def ChecksResponsesOf (g : GuardSetup σ ε) (a : Action) : Prop :=
  g.settings.checksResponses = true ∧ a.validateOutput = true

/-- The body that is delivered: what the action returned, or what stood there before. -/
def deliveredBody (returned before : Json) : Json :=
  match returned with
  | .null => before
  | value => value

/-- A response as it is completed after an action. -/
def complete (a : Action) (returned : Json) (r : Response) : Response :=
  ⟨a.statusCode, deliveredBody returned r.body⟩

section After

variable (g : GuardSetup σ ε) (a : Action)

/-- The handlers that are called before a check of a response let it pass: the state at which the
check is made. -/
def ReachesResponseCheck (s : GuardState σ) (response : Response) (u : GuardState σ) : Prop :=
  ∃ payload, emit g .beforeResponseCheck a .null s = (.ok payload, u) ∧
    u.scene.response = some response

/-- **All runs of a check of a response**, by how far they come. -/
inductive ResponseChecked (s : GuardState σ) :
    Except (GuardError ε) PUnit → GuardState σ → Prop where
  | refusedBefore {e : GuardError ε} {u : GuardState σ}
      (called : emit g .beforeResponseCheck a .null s = (.error e, u)) :
      ResponseChecked s (.error e) u
  | noResponse {payload : Json} {u : GuardState σ}
      (called : emit g .beforeResponseCheck a .null s = (.ok payload, u))
      (nothing : u.scene.response = none) : ResponseChecked s (.ok ⟨⟩) u
  | faulty {response : Response} {u : GuardState σ} {f : Fault}
      (reaches : ReachesResponseCheck g a s response u)
      (checked : a.checkResponse response = .error f) : ResponseChecked s (.error (.fault f)) u
  | refusedInvalid {response : Response} {reports : List PartReport} {u w : GuardState σ}
      {e : GuardError ε} (reaches : ReachesResponseCheck g a s response u)
      (checked : a.checkResponse response = .ok reports) (isInvalid : reports ≠ [])
      (called : emit g .invalidResponse a (reportsJson reports) u = (.error e, w)) :
      ResponseChecked s (.error e) w
  | invalid {response : Response} {reports : List PartReport} {u w : GuardState σ} {payload : Json}
      (reaches : ReachesResponseCheck g a s response u)
      (checked : a.checkResponse response = .ok reports) (isInvalid : reports ≠ [])
      (called : emit g .invalidResponse a (reportsJson reports) u = (.ok payload, w))
      (refuses : g.settings.refusesResponses = true) :
      ResponseChecked s (.error (.invalid g.settings.refusalStatus payload)) w
  | tolerated {response : Response} {reports : List PartReport} {u w s' : GuardState σ}
      {payload : Json} {r : Except (GuardError ε) Json}
      (reaches : ReachesResponseCheck g a s response u)
      (checked : a.checkResponse response = .ok reports) (isInvalid : reports ≠ [])
      (called : emit g .invalidResponse a (reportsJson reports) u = (.ok payload, w))
      (tolerates : g.settings.refusesResponses = false)
      (calledLast : emit g .afterResponseCheck a .null
        { w with notices := w.notices ++ [responseNotice a payload] } = (r, s')) :
      ResponseChecked s (r.map fun _ => ⟨⟩) s'
  | passed {response : Response} {u s' : GuardState σ} {r : Except (GuardError ε) Json}
      (reaches : ReachesResponseCheck g a s response u)
      (checked : a.checkResponse response = .ok [])
      (called : emit g .afterResponseCheck a .null u = (r, s')) :
      ResponseChecked s (r.map fun _ => ⟨⟩) s'

variable {g a}

theorem run_emit_discard {moment : Moment} {errors : Json} {u s' : GuardState σ}
    {r : Except (GuardError ε) PUnit}
    (run : (do let _ ← emit g moment a errors) u = (r, s')) :
    ∃ r' : Except (GuardError ε) Json, emit g moment a errors u = (r', s') ∧
      r = r'.map fun _ => ⟨⟩ := by
  rw [run_bind] at run
  split at run
  · next payload t called =>
      cases run
      exact ⟨_, called, rfl⟩
  · next e t called =>
      cases run
      exact ⟨_, called, rfl⟩

theorem responseChecked_of_run {s s' : GuardState σ} {r : Except (GuardError ε) PUnit}
    (run : checkResponse g a s = (r, s')) : ResponseChecked g a s r s' := by
  rw [checkResponse, run_bind] at run
  split at run
  · next payload u called =>
      rw [run_bind_ok (run_scene u)] at run
      cases found : u.scene.response with
      | none =>
          rw [found] at run
          cases run
          exact .noResponse called found
      | some response =>
          have reaches : ReachesResponseCheck g a s response u := ⟨payload, called, found⟩
          rw [found] at run
          change (ofCheck (a.checkResponse response) >>= _) u = _ at run
          cases checked : a.checkResponse response with
          | error f =>
              rw [run_bind_error (run_ofCheck_error checked u)] at run
              cases run
              exact .faulty reaches checked
          | ok reports =>
              rw [run_bind_ok (run_ofCheck_ok checked u)] at run
              cases reports with
              | nil =>
                  obtain ⟨r', calledLast, rfl⟩ := run_emit_discard run
                  exact .passed reaches checked calledLast
              | cons report more =>
                  change (emit g .invalidResponse a _ >>= _) u = _ at run
                  rw [run_bind] at run
                  split at run
                  · next payload w calledInvalid =>
                      cases refuses : g.settings.refusesResponses with
                      | true =>
                          simp only [refuses, if_true] at run
                          cases run
                          exact .invalid reaches checked (List.cons_ne_nil _ _) calledInvalid
                            refuses
                      | false =>
                          simp only [refuses, Bool.false_eq_true, if_false] at run
                          rw [run_bind_ok (run_notify ..)] at run
                          obtain ⟨r', calledLast, rfl⟩ := run_emit_discard run
                          exact .tolerated reaches checked (List.cons_ne_nil _ _) calledInvalid
                            refuses calledLast
                  · next e w calledInvalid =>
                      cases run
                      exact .refusedInvalid reaches checked (List.cons_ne_nil _ _) calledInvalid
  · next e u called =>
      cases run
      exact .refusedBefore called

/-- A state after the request was forgotten and the response at hand changed. -/
def afterwards (who : Identity) (f : Response → Response) (s : GuardState σ) : GuardState σ :=
  { s with
    pending := s.pending.forget who
    scene := { s.scene with response := s.scene.response.map f } }

variable (g) in
/-- **All runs after an action**, by how far they come. -/
inductive After (who : Identity) (returned : Json) (s : GuardState σ) :
    Except (GuardError ε) PUnit → GuardState σ → Prop where
  | lost {e : GuardError ε} {t : GuardState σ} (lookup : actionFor g who s = (.error e, t)) :
      After who returned s (.error e) t
  | unknown {t : GuardState σ} (lookup : actionFor g who s = (.ok none, t)) :
      After who returned s (.ok ⟨⟩)
        (afterwards who (fun r => { r with body := deliveredBody returned r.body }) t)
  | unchecked {a : Action} {t : GuardState σ} (lookup : actionFor g who s = (.ok (some a), t))
      (off : ¬ ChecksResponsesOf g a) :
      After who returned s (.ok ⟨⟩) (afterwards who (complete a returned) t)
  | checked {a : Action} {t s' : GuardState σ} {r : Except (GuardError ε) PUnit}
      (lookup : actionFor g who s = (.ok (some a), t)) (on : ChecksResponsesOf g a)
      (check : ResponseChecked g a (afterwards who (complete a returned) t) r s') :
      After who returned s r s'

theorem map_deliveredBody_null (response : Option Response) :
    response.map (fun r => { r with body := deliveredBody .null r.body }) = response :=
  Option.map_id'

theorem map_complete (a : Action) (returned : Json) (response : Option Response) :
    (response.map fun r => { r with body := deliveredBody returned r.body }).map
        (fun r => { r with status := a.statusCode }) =
      response.map (complete a returned) := by
  rw [Option.map_map]
  rfl

theorem after_of_run {who : Identity} {returned : Json} {s s' : GuardState σ}
    {r : Except (GuardError ε) PUnit} (run : afterAction g who returned s = (r, s')) :
    After g who returned s r s' := by
  rw [afterAction, run_bind] at run
  split at run
  · next found t lookup =>
      rw [run_bind_ok (run_release ..)] at run
      cases found with
      | none =>
          have delivered : (pure ⟨⟩ : Guarding σ ε PUnit)
              (afterwards who (fun r => { r with body := deliveredBody returned r.body }) t) =
                (r, s') := by
            cases returned with
            | null =>
                rw [afterwards, map_deliveredBody_null]
                exact run
            | bool b | int i | float x | str text | arr items | obj members => exact run
          cases delivered
          exact .unknown lookup
      | some a =>
          have delivered : (do
              changeScene (withResponse fun r => { r with status := a.statusCode })
              if g.settings.checksResponses && a.validateOutput then checkResponse g a :
                Guarding σ ε PUnit)
              (afterwards who (fun r => { r with body := deliveredBody returned r.body }) t) =
                (r, s') := by
            cases returned with
            | null =>
                rw [afterwards, map_deliveredBody_null]
                exact run
            | bool b | int i | float x | str text | arr items | obj members => exact run
          rw [run_bind_ok (run_changeScene ..)] at delivered
          simp only [withResponse, afterwards, map_complete] at delivered
          by_cases on : ChecksResponsesOf g a
          · simp only [on.1, on.2, Bool.and_true, if_true] at delivered
            exact .checked lookup on (responseChecked_of_run delivered)
          · have off : (g.settings.checksResponses && a.validateOutput) = false := by
              rw [Bool.eq_false_iff, Ne, Bool.and_eq_true]
              exact on
            simp only [off, Bool.false_eq_true, if_false] at delivered
            cases delivered
            exact .unchecked lookup on
  · next e t lookup =>
      cases run
      exact .lost lookup

end After

end RouteContract.Guard
