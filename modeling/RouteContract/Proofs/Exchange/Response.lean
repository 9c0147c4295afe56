import RouteContract.Proofs.Exchange.Request

/-!
# Responses are checked on a copy

A guard that refuses responses lets one pass when a coerced copy of its body keeps the contract.
What is delivered is the body as it came (`afterAction_delivers`), so it satisfies its schema as it
stands only where coercion leaves it alone: a text that spells a number is delivered as a text
(`spelled_number_delivered`).
-/

set_option autoImplicit false

namespace RouteContract

open Schema Json

theorem checkResponse_eq_ok {a : Action} {response : Response} {reports : List PartReport}
    (h : a.checkResponse response = .ok reports) :
    ∃ o, Checker.check ⟨.obj a.returns⟩ response.body = .ok o ∧ reports = partReport "body" o := by
  obtain ⟨c, compiled, h⟩ := bind_eq_ok_iff.1 h
  cases ofAction_eq_ok compiled
  obtain ⟨o, checked, h⟩ := bind_eq_ok_iff.1 h
  cases h
  exact ⟨o, checked, rfl⟩

/-- Nothing is reported about a response exactly when its body could be handed on. -/
theorem reports_eq_nil_iff {a : Action} {response : Response} {reports : List PartReport}
    (h : a.checkResponse response = .ok reports) :
    reports = [] ↔ ∃ coerced, HandedOn a.returns response.body coerced := by
  obtain ⟨o, checked, rfl⟩ := checkResponse_eq_ok h
  rw [partReport_eq_nil_iff, handedOn_iff_isValid checked]
  constructor
  · intro handedOn
    exact ⟨_, handedOn⟩
  · rintro ⟨coerced, handedOn⟩
    have same := (check_eq_ok_iff.1 checked).1
    rw [handedOn.coerced] at same
    cases same
    exact handedOn

namespace Guard

variable {σ ε : Type} {g : GuardSetup σ ε} {who : Identity} {a : Action} {s s' : GuardState σ}

theorem response_of_emit (leave : Leave g.handlers Scene.response) {moment : Moment} {errors : Json}
    {r : Except (GuardError ε) Json} (run : emit g moment a errors s = (r, s')) :
    s'.scene.response = s.scene.response :=
  (called_emit run).leaves Scene.response (fun _ _ => rfl) leave

/-- What a check of the response at hand comes to where responses are refused. -/
theorem responseChecked_delivers {r : Except (GuardError ε) PUnit} {response : Response}
    (leave : Leave g.handlers Scene.response) (refuses : g.settings.refusesResponses = true)
    (atHand : s.scene.response = some response) (checked : ResponseChecked g a s r s') :
    s'.scene.response = some response ∧
      (r = .ok ⟨⟩ → ∃ coerced, HandedOn a.returns response.body coerced) ∧
      ∀ status payload, r = .error (.invalid status payload) →
        status = g.settings.refusalStatus ∧
          ¬ ∃ coerced, HandedOn a.returns response.body coerced := by
  have reached {other : Response} {u : GuardState σ}
      (reaches : ReachesResponseCheck g a s other u) :
      other = response ∧ u.scene.response = some response := by
    obtain ⟨payload, called, found⟩ := reaches
    have same := response_of_emit leave called
    rw [found, atHand] at same
    cases same
    exact ⟨rfl, found⟩
  cases checked with
  | refusedBefore called =>
      refine ⟨(response_of_emit leave called).trans atHand, nofun, ?_⟩
      rintro status payload ⟨⟩
      exact absurd rfl (((called_emit called).refuses _ rfl).ne_invalid status payload)
  | noResponse called nothing =>
      rw [response_of_emit leave called, atHand] at nothing
      cases nothing
  | faulty reaches fault => exact ⟨(reached reaches).2, nofun, nofun⟩
  | refusedInvalid reaches _ _ called =>
      refine ⟨(response_of_emit leave called).trans (reached reaches).2, nofun, ?_⟩
      rintro status payload ⟨⟩
      exact absurd rfl (((called_emit called).refuses _ rfl).ne_invalid status payload)
  | invalid reaches found isInvalid called _ =>
      refine ⟨(response_of_emit leave called).trans (reached reaches).2, nofun, ?_⟩
      rintro status payload ⟨⟩
      cases (reached reaches).1
      exact ⟨rfl, fun handedOn => isInvalid ((reports_eq_nil_iff found).2 handedOn)⟩
  | tolerated _ _ _ _ tolerates =>
      rw [refuses] at tolerates
      cases tolerates
  | @passed _ _ _ r' reaches found called =>
      refine ⟨(response_of_emit leave called).trans (reached reaches).2, fun _ => ?_, ?_⟩
      · cases (reached reaches).1
        exact (reports_eq_nil_iff found).1 rfl
      · intro status payload same
        cases r' with
        | ok _ => cases same
        | error e =>
            cases same
            exact absurd rfl (((called_emit called).refuses _ rfl).ne_invalid status payload)

/-- **What is delivered is what was returned**, where responses are refused and handlers leave the
response alone. A run that ends well delivers the body as it came; a coerced copy of it keeps the
contract, and so does the body itself if coercion leaves it alone. A response is refused as invalid
only if no copy of its body keeps the contract. -/
theorem afterAction_delivers {returned : Json} {before : Response}
    {r : Except (GuardError ε) PUnit} (leave : Leave g.handlers Scene.response)
    (resolves : (actionFor g who s).1 = .ok (some a)) (on : ChecksResponsesOf g a)
    (refuses : g.settings.refusesResponses = true) (atHand : s.scene.response = some before)
    (run : afterAction g who returned s = (r, s')) :
    s'.scene.response = some ⟨a.statusCode, deliveredBody returned before.body⟩ ∧
      (r = .ok ⟨⟩ →
        (∃ coerced, HandedOn a.returns (deliveredBody returned before.body) coerced) ∧
        (coerce (.obj a.returns) (deliveredBody returned before.body) =
            .ok (deliveredBody returned before.body) →
          HandedOn a.returns (deliveredBody returned before.body)
            (deliveredBody returned before.body))) ∧
      ∀ status payload, r = .error (.invalid status payload) →
        status = g.settings.refusalStatus ∧
          ¬ ∃ coerced, HandedOn a.returns (deliveredBody returned before.body) coerced := by
  cases after_of_run run with
  | lost lookup | unknown lookup =>
      rw [lookup] at resolves
      cases resolves
  | unchecked lookup off =>
      rw [lookup] at resolves
      cases resolves
      exact absurd on off
  | @checked a' t _ _ lookup on' check =>
      rw [lookup] at resolves
      cases resolves
      have completed : (afterwards who (complete a returned) t).scene.response =
          some (complete a returned before) := by
        rw [afterwards, (resolved_actionFor lookup).scene, atHand]
        rfl
      obtain ⟨delivered, passes, refused⟩ :=
        responseChecked_delivers leave refuses completed check
      refine ⟨delivered, fun ended => ⟨passes ended, fun kept => ?_⟩, refused⟩
      obtain ⟨coerced, handedOn⟩ := passes ended
      have same := handedOn.coerced
      rw [complete, kept] at same
      cases same
      exact handedOn

/-! ## A number that is spelled out -/

section SpelledNumber

/-- An action that answers with a number. -/
def countAction : Action :=
  { name := "count", owner := none, operationId := none, description := none,
    returnDescription := none, statusCode := 200, validateInput := true, validateOutput := true,
    params := [], query := [], body := [], returns := [("type", .str "integer")], errors := [] }

/-- A guard of that action, without handlers. -/
def countGuard : GuardSetup PUnit PUnit :=
  { settings := checkingSettings
    snapshot := some ⟨[("get", [⟨"/^/count/?$/i", "/count", countAction⟩])]⟩
    handlers := [] }

/-- The guard with a request for the number and an empty response at hand. -/
def countState : GuardState PUnit :=
  ⟨.empty, ⟨⟨"get", "/count", .null, .obj [], .obj []⟩, some ⟨200, .null⟩, .null, ⟨⟩⟩, []⟩

/-- The request for the number. -/
def countRequest : Identity := ⟨0, 0⟩

/-- An action that returns the number five as it should keeps its contract. -/
theorem countGuard_delivers :
    Leave countGuard.handlers Scene.response ∧
      (actionFor countGuard countRequest countState).1 = .ok (some countAction) ∧
      ChecksResponsesOf countGuard countAction ∧
      countGuard.settings.refusesResponses = true ∧
      countState.scene.response = some ⟨200, .null⟩ ∧
      ∃ s', afterAction countGuard countRequest (.int 5) countState = (.ok ⟨⟩, s') ∧
        s'.scene.response = some ⟨200, .int 5⟩ ∧
        HandedOn countAction.returns (.int 5) (.int 5) := by
  have leave : Leave countGuard.handlers Scene.response := nofun
  have resolves : (actionFor countGuard countRequest countState).1 =
      .ok (some countAction) := by cbv
  have on : ChecksResponsesOf countGuard countAction := ⟨rfl, rfl⟩
  have passes : (afterAction countGuard countRequest (.int 5) countState).1 = .ok ⟨⟩ := by cbv
  have kept : coerce (.obj countAction.returns) (.int 5) = .ok (.int 5) := by cbv
  obtain ⟨delivered, ended, -⟩ :=
    afterAction_delivers leave resolves on rfl rfl (Prod.ext passes rfl)
  exact ⟨leave, resolves, on, rfl, rfl, _, Prod.ext passes rfl, delivered, (ended rfl).2 kept⟩

/-- An action that returns the text of a number passes, and the text is delivered, though the schema
asks for a number and evaluation finds that it does not get one. -/
theorem spelled_number_delivered :
    Leave countGuard.handlers Scene.response ∧
      (actionFor countGuard countRequest countState).1 = .ok (some countAction) ∧
      ChecksResponsesOf countGuard countAction ∧
      countGuard.settings.refusesResponses = true ∧
      (afterAction countGuard countRequest (.str "5") countState).1 = .ok ⟨⟩ ∧
      (afterAction countGuard countRequest (.str "5") countState).2.scene.response =
        some ⟨200, .str "5"⟩ ∧
      (violations (.obj countAction.returns) (.str "5")).map (·.map (·.message)) =
        .ok ["'5' is not of type 'integer'"] := by
  refine ⟨nofun, ?_, ⟨rfl, rfl⟩, rfl, ?_, ?_, ?_⟩
  · cbv
  · cbv
  · cbv
  · cbv

end SpelledNumber

end Guard

end RouteContract
