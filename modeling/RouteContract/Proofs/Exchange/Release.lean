import RouteContract.Proofs.Exchange.Traffic

/-!
# Requests that a failed call leaves behind

A call before an action that fails releases its request only where the check itself found the
request invalid. Where no action was found there is nothing to release. But an error that comes
between the two, of a handler that refuses or of a contract that cannot be evaluated, leaves the
request with the action that was looked up for it: later calls about the request work with that
action, whatever routes are loaded by then (`failed_call_pending`).
-/

set_option autoImplicit false

namespace RouteContract

/-- An error of handlers, or of a contract that cannot be evaluated. -/
def GuardError.IsStray {ε : Type} : GuardError ε → Prop
  | .fault _ | .refused _ => True
  | .notLoaded | .hugeCount | .invalid _ _ => False

namespace Guard

variable {σ ε : Type} {g : GuardSetup σ ε} {who : Identity} {s t : GuardState σ}
  {e : GuardError ε}

/-! ## Why a call fails -/

theorem MayRefuse.isStray {handlers : List (Handler σ ε)} {moment : Moment} {a : Action}
    (refuses : MayRefuse handlers moment a e) : e.IsStray := by
  obtain ⟨handler, -, scene, refusal, -, rfl⟩ := refuses
  trivial

/-- An action that is looked up in vain is missing from the routes, and nothing else is wrong. -/
theorem not_isStray_of_lost (lookup : actionFor g who s = (.error e, t)) : ¬ e.IsStray := by
  have found := (find_of_lost lookup).2
  rcases run : find g s with ⟨r, u⟩
  rw [run] at found
  cases found
  cases found_of_run run with
  | notLoaded nothing => exact id
  | hugeCount loaded looked => exact id

/-- **All ways in which a call before an action fails**: no action was found, or the check found the
request invalid, or an action was found and the error is a stray one. -/
inductive FailsBefore (g : GuardSetup σ ε) (who : Identity) (s : GuardState σ) :
    GuardError ε → Prop where
  | lost {e : GuardError ε} (lookup : (actionFor g who s).1 = .error e) (known : ¬ e.IsStray) :
      FailsBefore g who s e
  | invalid {payload : Json} : FailsBefore g who s (.invalid 400 payload)
  | stray {e : GuardError ε} {a : Action} (lookup : (actionFor g who s).1 = .ok (some a))
      (isStray : e.IsStray) : FailsBefore g who s e

theorem failsBefore_of_run (failed : beforeAction g who s = (.error e, t)) :
    FailsBefore g who s e := by
  have found {a : Action} {u : GuardState σ} (reaches : ReachesCheck g who s a u) :
      (actionFor g who s).1 = .ok (some a) := by
    obtain ⟨v, lookup, -⟩ := reaches
    rw [lookup]
  cases before_of_run failed with
  | lost lookup => exact .lost (by rw [lookup]) (not_isStray_of_lost lookup)
  | refusedBefore lookup on called =>
      exact .stray (by rw [lookup]) ((called_emit called).refuses _ rfl).isStray
  | faulty reaches checked => exact .stray (found reaches) trivial
  | refusedInvalid reaches checked isInvalid called
  | refusedAfter reaches checked isValid called =>
      exact .stray (found reaches) ((called_emit called).refuses _ rfl).isStray
  | invalid reaches checked isInvalid called => exact .invalid

/-! ## What a failed call leaves -/

/-- What is remembered about a request after a call before its action: what was looked up, unless
the request was refused as invalid. -/
theorem get?_beforeAction (g : GuardSetup σ ε) (who : Identity) (s : GuardState σ) :
    (beforeAction g who s).2.pending.get? who =
      if isRejection (beforeAction g who s).1 then none else (actionFor g who s).1.toOption := by
  rw [before_pending (before_of_run (Prod.eta _).symm)]
  split
  · exact IdentityMemory.get?_forget_self ..
  · rw [(actionFor_remembers g who s).2, actionFor_fst]
    cases s.pending.get? who with
    | none => rfl
    | some a => rfl

theorem get?_of_not_isStray (failed : beforeAction g who s = (.error e, t)) (known : ¬ e.IsStray) :
    t.pending.get? who = none := by
  have remembers := get?_beforeAction g who s
  rw [failed] at remembers
  cases failsBefore_of_run failed with
  | lost lookup known =>
      rw [remembers, lookup]
      exact ite_self _
  | invalid => exact remembers
  | stray lookup isStray => exact absurd isStray known

theorem get?_of_isStray (failed : beforeAction g who s = (.error e, t)) (isStray : e.IsStray) :
    ∃ a, (actionFor g who s).1 = .ok (some a) ∧ t.pending.get? who = some (some a) := by
  have remembers := get?_beforeAction g who s
  rw [failed] at remembers
  cases failsBefore_of_run failed with
  | lost lookup known => exact absurd isStray known
  | invalid => exact isStray.elim
  | @stray _ a lookup isStray =>
      have kept : isRejection (.error e : Except (GuardError ε) (Option Action)) = false := by
        cases e with
        | fault f | refused refusal => rfl
        | notLoaded | hugeCount | invalid status payload => exact isStray.elim
      refine ⟨a, lookup, ?_⟩
      rw [remembers, kept, lookup]
      rfl

/-- **Which failed calls leave their request behind.** Take a call before an action that ends with
an error. Nothing is remembered about its request afterwards exactly if the error is none of a
handler and none of a contract that cannot be evaluated. Then a later call about the request, in any
scene and with any routes loaded, looks the action up afresh. Otherwise the action that was looked
up stays, and later calls work with it whatever routes are loaded. -/
theorem failed_call_pending (failed : beforeAction g who s = (.error e, t)) :
    (t.pending.get? who = none ↔ ¬ e.IsStray) ∧
      (¬ e.IsStray → ∀ (scene : Scene σ) (routes : Option Snapshot),
        (actionFor { g with snapshot := routes } who { t with scene := scene }).1 =
          (find { g with snapshot := routes } { t with scene := scene }).1) ∧
      (e.IsStray → ∃ a, (actionFor g who s).1 = .ok (some a) ∧
        ∀ scene : Scene σ, WorksWith g who { t with scene := scene } (some a)) := by
  refine ⟨⟨fun released isStray => ?_, get?_of_not_isStray failed⟩, ?_, fun isStray => ?_⟩
  · obtain ⟨a, -, kept⟩ := get?_of_isStray failed isStray
    rw [released] at kept
    cases kept
  · intro known scene routes
    have unknown : t.pending.get? who = none := get?_of_not_isStray failed known
    rw [actionFor_fst, unknown]
  · obtain ⟨a, lookup, kept⟩ := get?_of_isStray failed isStray
    exact ⟨a, lookup, fun scene => worksWith_of_remembered g kept⟩

/-! ## A contract that cannot be evaluated -/

/-- An action whose body is described by a schema that is nowhere. -/
def lostAction : Action :=
  { Action.blank with name := "create", body := [("$ref", .str "#/nowhere")] }

/-- A guard of that action. -/
def lostGuard : GuardSetup PUnit PUnit :=
  ⟨checkingSettings, some ⟨[("post", [⟨"/^\\/users$/", "/users", lostAction⟩])]⟩, []⟩

/-- The guard with a user at hand. -/
def lostState : GuardState PUnit :=
  ⟨.empty, ⟨⟨"post", "/users", .obj [], .obj [], .obj []⟩, none, .null, ⟨⟩⟩, []⟩

/-- The call about the user fails and leaves it behind. A later call fails in the same way, although
no routes are loaded by then. -/
theorem lostGuard_pending :
    ∃ t, beforeAction lostGuard ⟨0, 0⟩ lostState = (.error (.fault .unresolvable), t) ∧
      t.pending.get? ⟨0, 0⟩ ≠ none ∧
      (find { lostGuard with snapshot := some ⟨[]⟩ } t).1 = .ok none ∧
      (beforeAction { lostGuard with snapshot := some ⟨[]⟩ } ⟨0, 0⟩ t).1 =
        .error (.fault .unresolvable) := by
  have fails : (beforeAction lostGuard ⟨0, 0⟩ lostState).1 = .error (.fault .unresolvable) := by cbv
  have again : (beforeAction lostGuard ⟨0, 0⟩ (beforeAction lostGuard ⟨0, 0⟩ lostState).2).1 =
      .error (.fault .unresolvable) := by cbv
  have empty : (find { lostGuard with snapshot := some ⟨[]⟩ }
      (beforeAction lostGuard ⟨0, 0⟩ lostState).2).1 = .ok none := by cbv
  rcases failed : beforeAction lostGuard ⟨0, 0⟩ lostState with ⟨r, t⟩
  rw [failed] at fails again empty
  obtain rfl : r = .error (.fault .unresolvable) := fails
  obtain ⟨released, -, stays⟩ := failed_call_pending failed
  obtain ⟨a, -, works⟩ := stays trivial
  refine ⟨t, rfl, fun forgotten => released.1 forgotten trivial, empty, ?_⟩
  rw [← again]
  exact congrArg Prod.fst ((works t.scene).before (some ⟨[]⟩))

end Guard

end RouteContract
