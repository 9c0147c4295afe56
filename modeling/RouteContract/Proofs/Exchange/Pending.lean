import RouteContract.Proofs.Data.Identity
import RouteContract.Proofs.Exchange.Guard

/-!
# What a guard remembers of its calls

A call about one request leaves what is remembered about the requests at other places. About its own
request it remembers the action that was looked up, unless the call releases the request: then there
is nothing (`Call.leaves_remembers`).
-/

set_option autoImplicit false

namespace RouteContract.Guard

open IdentityMemory

variable {σ ε α : Type}

/-! ## What calls remember -/

/-- Whether a message was refused because it breaks its contract. -/
def isRejection : Except (GuardError ε) α → Bool
  | .error (.invalid _ _) => true
  | _ => false

theorem MayRefuse.isRejection_eq {handlers : List (Handler σ ε)} {moment : Moment} {a : Action}
    {e : GuardError ε} (h : MayRefuse handlers moment a e) :
    isRejection (.error e : Except (GuardError ε) α) = false := by
  obtain ⟨handler, -, scene, refusal, -, rfl⟩ := h
  rfl

section Calls

variable {g : GuardSetup σ ε} {who : Identity} {s s' t : GuardState σ}

theorem isRejection_find (g : GuardSetup σ ε) (s : GuardState σ) :
    isRejection (find g s).1 = false := by
  rcases run : find g s with ⟨r, t⟩
  cases found_of_run run with
  | notLoaded nothing => rfl
  | hugeCount loaded looked | answered loaded looked => rfl

/-- The action of a request is the one it was remembered with, or the one that is found now. -/
theorem actionFor_fst (g : GuardSetup σ ε) (who : Identity) (s : GuardState σ) :
    (actionFor g who s).1 =
      match s.pending.get? who with
      | some a => .ok a
      | none => (find g s).1 := by
  cases known : s.pending.get? who with
  | some a => rw [actionFor_of_remembered g known]
  | none =>
      rw [actionFor_of_unknown g known]
      rcases find g s with ⟨_ | _, t⟩
      · rfl
      · rfl

/-- What looking an action up comes to in the memory. -/
theorem actionFor_remembers (g : GuardSetup σ ε) (who : Identity) (s : GuardState σ) :
    Touches who s.pending (actionFor g who s).2.pending ∧
      (actionFor g who s).2.pending.get? who =
        (s.pending.get? who).or (find g s).1.toOption := by
  cases known : s.pending.get? who with
  | some a =>
      rw [actionFor_of_remembered g known]
      exact ⟨.refl .., known⟩
  | none =>
      rw [actionFor_of_unknown g known]
      rcases found : find g s with ⟨answer, u⟩
      have same := (find_run found).2
      cases answer with
      | error e =>
          simp only [same]
          exact ⟨.refl .., known⟩
      | ok a =>
          simp only [same]
          exact ⟨.put .., get?_put_self ..⟩

/-- A lookup fails where nothing is remembered and nothing is found. -/
theorem find_of_lost {e : GuardError ε} (lookup : actionFor g who s = (.error e, t)) :
    s.pending.get? who = none ∧ (find g s).1 = .error e := by
  have answer := actionFor_fst g who s
  rw [lookup] at answer
  cases known : s.pending.get? who with
  | some a =>
      rw [known] at answer
      cases answer
  | none =>
      rw [known] at answer
      exact ⟨rfl, answer.symm⟩

theorem get?_of_lost {e : GuardError ε} (lookup : actionFor g who s = (.error e, t)) :
    t.pending.get? who = none := by
  obtain ⟨unknown, found⟩ := find_of_lost lookup
  have remembers := (actionFor_remembers g who s).2
  rw [lookup, unknown, found] at remembers
  exact remembers

theorem isRejection_of_lost {e : GuardError ε} (lookup : actionFor g who s = (.error e, t)) :
    isRejection (.error e : Except (GuardError ε) (Option Action)) = false := by
  rw [← (find_of_lost lookup).2]
  exact isRejection_find g s

theorem ReachesCheck.pending {a : Action} (reaches : ReachesCheck g who s a t) :
    t.pending = (actionFor g who s).2.pending := by
  obtain ⟨u, lookup, -, payload, called⟩ := reaches
  rw [(called_emit called).pending, lookup]

/-- A call before an action leaves what was looked up, unless it refuses the request. -/
theorem before_pending {r : Except (GuardError ε) (Option Action)} (ran : Before g who s r s') :
    s'.pending =
      if isRejection r then (actionFor g who s).2.pending.forget who
      else (actionFor g who s).2.pending := by
  cases ran with
  | lost lookup => rw [isRejection_of_lost lookup, lookup, if_neg Bool.false_ne_true]
  | unknown lookup | unchecked lookup off =>
      rw [lookup]
      rfl
  | refusedBefore lookup on called =>
      have called := called_emit called
      rw [(called.refuses _ rfl).isRejection_eq, called.pending, lookup, if_neg Bool.false_ne_true]
  | faulty reaches checked =>
      rw [reaches.pending]
      rfl
  | refusedInvalid reaches checked isInvalid called =>
      have called := called_emit called
      rw [(called.refuses _ rfl).isRejection_eq, called.pending, reaches.pending,
        if_neg Bool.false_ne_true]
  | invalid reaches checked isInvalid called =>
      rw [(called_emit called).pending, reaches.pending]
      rfl
  | refusedAfter reaches checked isValid called =>
      have called := called_emit called
      rw [(called.refuses _ rfl).isRejection_eq, called.pending, if_neg Bool.false_ne_true]
      exact reaches.pending
  | passed reaches checked isValid called =>
      rw [(called_emit called).pending]
      exact reaches.pending

theorem responseChecked_pending {a : Action} {r : Except (GuardError ε) PUnit}
    (ran : ResponseChecked g a s r s') : s'.pending = s.pending := by
  have reached {response : Response} {u : GuardState σ}
      (reaches : ReachesResponseCheck g a s response u) : u.pending = s.pending := by
    obtain ⟨payload, called, -⟩ := reaches
    exact (called_emit called).pending
  cases ran with
  | refusedBefore called | noResponse called nothing => exact (called_emit called).pending
  | faulty reaches checked => exact reached reaches
  | refusedInvalid reaches checked isInvalid called
  | invalid reaches checked isInvalid called refuses
  | passed reaches checked called =>
      exact (called_emit called).pending.trans (reached reaches)
  | tolerated reaches checked isInvalid called tolerates calledLast =>
      rw [(called_emit calledLast).pending]
      exact (called_emit called).pending.trans (reached reaches)

/-- A call after an action forgets the request, however it ends. -/
theorem after_pending {returned : Json} {r : Except (GuardError ε) PUnit}
    (ran : After g who returned s r s') :
    s'.pending = (actionFor g who s).2.pending.forget who := by
  cases ran with
  | lost lookup =>
      rw [lookup, forget, get?_of_lost lookup]
      rfl
  | unknown lookup | unchecked lookup off =>
      rw [lookup]
      rfl
  | checked lookup on check =>
      rw [responseChecked_pending check, lookup]
      rfl

end Calls

/-! ## Calls about a request -/

/-- A call of a guard about a request. -/
inductive Call where
  | before
  | after (returned : Json)
  | release

namespace Call

variable (g : GuardSetup σ ε) (who : Identity) (s : GuardState σ)

/-- What is remembered after a call. -/
def leaves : Call → IdentityMemory (Option Action)
  | .before => (beforeAction g who s).2.pending
  | .after returned => (afterAction g who returned s).2.pending
  | .release => ((Guard.release who : Guarding σ ε PUnit) s).2.pending

/-- What a call finds for a request about which nothing is remembered. -/
def finds? : Call → Option (Option Action)
  | .before | .after _ => (find g s).1.toOption
  | .release => none

/-- Whether a call releases its request. -/
def releases : Call → Bool
  | .before => isRejection (beforeAction g who s).1
  | .after _ | .release => true

/-- **What a call remembers**: nothing about its request if that is released, or else what was
remembered before, or else what is found. -/
theorem leaves_remembers (c : Call) :
    Touches who s.pending (c.leaves g who s) ∧
      (c.leaves g who s).get? who =
        if c.releases g who s then none else (s.pending.get? who).or (c.finds? g s) := by
  obtain ⟨touches, remembers⟩ := actionFor_remembers g who s
  cases c with
  | before =>
      rw [leaves, releases, before_pending (before_of_run (Prod.eta _).symm)]
      split
      · exact ⟨touches.trans (.forget ..), get?_forget_self ..⟩
      · exact ⟨touches, remembers⟩
  | after returned =>
      rw [leaves, after_pending (after_of_run (Prod.eta _).symm)]
      exact ⟨touches.trans (.forget ..), get?_forget_self ..⟩
  | release => exact ⟨.forget .., get?_forget_self ..⟩

end Call

end RouteContract.Guard
