import RouteContract.Contract.Document
import RouteContract.Proofs.Exchange.Pending
import RouteContract.Proofs.Exchange.Request

/-!
# Requests keep the actions they were checked against

Many requests pass a guard, while routes are replaced and requests are given up. A place at which a
request was kept is used again after the request is gone, perhaps before the guard was told of its
end. All the same a request has the action that was found when it was first looked up since it was
last released, and no other (`keeps_actions`): a step keeps what is known about every request that
lives (`Sound`), so a whole run does.
-/

set_option autoImplicit false

namespace RouteContract.Guard

open IdentityMemory

variable {σ ε : Type}

/-! ## Runs -/

/-- A guard among requests: the routes that are loaded, what is remembered, the requests that live,
the requests that are gone without the guard having been told, and how many requests there were. -/
structure Traffic where
  snapshot : Option Snapshot
  pending : IdentityMemory (Option Action)
  live : Finset Identity
  gone : Finset Identity
  births : Nat

/-- What may happen. -/
inductive Step (σ : Type) where
  /-- A request comes to be at a place. -/
  | arrive (place : Nat)
  /-- The guard is called about a request, in any scene. -/
  | call (who : Identity) (scene : Scene σ) (c : Call)
  /-- The routes are replaced. -/
  | install (s : Snapshot)
  /-- A request is given up. -/
  | drop (who : Identity)
  /-- The guard is told that a request is gone. -/
  | tell (who : Identity)

namespace Traffic

/-- A guard before its first request. -/
def start (snapshot : Option Snapshot) : Traffic := ⟨snapshot, .empty, ∅, ∅, 0⟩

/-- A guard with the routes that are loaded now. -/
def setup (t : Traffic) (g : GuardSetup σ ε) : GuardSetup σ ε := { g with snapshot := t.snapshot }

/-- The state in which a call begins. -/
def state (t : Traffic) (scene : Scene σ) : GuardState σ := ⟨t.pending, scene, []⟩

end Traffic

namespace Step

/-- Whether a step can be taken. A place is free when no request that lives is there; only requests
that live are passed to calls. -/
def Possible (t : Traffic) : Step σ → Prop
  | .arrive place => ∀ other ∈ t.live, other.place ≠ place
  | .call who _ _ => who ∈ t.live
  | .install _ => True
  | .drop who => who ∈ t.live
  | .tell who => who ∈ t.gone

instance (t : Traffic) : (step : Step σ) → Decidable (step.Possible t)
  | .arrive place => inferInstanceAs (Decidable (∀ other ∈ t.live, other.place ≠ place))
  | .call who _ _ => inferInstanceAs (Decidable (who ∈ t.live))
  | .install _ => inferInstanceAs (Decidable True)
  | .drop who => inferInstanceAs (Decidable (who ∈ t.live))
  | .tell who => inferInstanceAs (Decidable (who ∈ t.gone))

/-- What a step leads to. -/
def next (g : GuardSetup σ ε) (t : Traffic) : Step σ → Traffic
  | .arrive place =>
      { t with live := insert ⟨place, t.births⟩ t.live, births := t.births + 1 }
  | .call who scene c => { t with pending := c.leaves (t.setup g) who (t.state scene) }
  | .install s => { t with snapshot := some s }
  | .drop who => { t with live := t.live.erase who, gone := insert who t.gone }
  | .tell who => { t with pending := t.pending.forget who, gone := t.gone.erase who }

/-- The request that a step calls the guard about. -/
def subject? : Step σ → Option Identity
  | .call who _ _ => some who
  | _ => none

/-- What a step finds for a request if nothing is remembered about it. -/
def finds? (g : GuardSetup σ ε) (who : Identity) (t : Traffic) : Step σ → Option (Option Action)
  | .call other scene c => if other = who then c.finds? (t.setup g) (t.state scene) else none
  | _ => none

/-- Whether a step releases a request. -/
def releases (g : GuardSetup σ ε) (who : Identity) (t : Traffic) : Step σ → Bool
  | .call other scene c => other == who && c.releases (t.setup g) who (t.state scene)
  | _ => false

end Step

/-- The steps of a run, the last one first, each with what it was taken in. -/
abbrev History (σ : Type) := List (Traffic × Step σ)

/-- The runs of a guard among requests. -/
inductive Run (g : GuardSetup σ ε) : History σ → Traffic → Prop where
  | start (snapshot : Option Snapshot) : Run g [] (.start snapshot)
  | step {history : History σ} {t : Traffic} {step : Step σ} (run : Run g history t)
      (possible : step.Possible t) : Run g ((t, step) :: history) (step.next g t)

/-! ## What a request was resolved to -/

/-- The action that was found for a request when it was first looked up since it was last released.
-/
def resolution? (g : GuardSetup σ ε) (who : Identity) (history : History σ) :
    Option (Option Action) :=
  (history.takeWhile fun entry => !entry.2.releases g who entry.1).reverse.findSome?
    fun entry => entry.2.finds? g who entry.1

section Invariant

variable {g : GuardSetup σ ε} {history : History σ} {t : Traffic} {who : Identity}

theorem resolution?_cons (g : GuardSetup σ ε) (who : Identity) (history : History σ) (t : Traffic)
    (step : Step σ) :
    resolution? g who ((t, step) :: history) =
      if step.releases g who t then none
      else (resolution? g who history).or (step.finds? g who t) := by
  rw [resolution?, List.takeWhile_cons]
  cases step.releases g who t with
  | true => simp
  | false => simp [resolution?, List.findSome?_append]

/-- A step that is no call about a request leaves what that was resolved to. -/
theorem resolution?_cons_of_other (step : Step σ) (other : step.subject? ≠ some who) :
    resolution? g who ((t, step) :: history) = resolution? g who history := by
  rw [resolution?_cons]
  cases step with
  | arrive place | install s | drop who | tell who => exact Option.or_none
  | call subject scene c =>
      have ne : subject ≠ who := fun same => other (congrArg some same)
      rw [Step.releases, Step.finds?, if_neg ne, beq_eq_false_iff_ne.2 ne, Bool.false_and,
        if_neg Bool.false_ne_true, Option.or_none]

/-- A call resolves its request, if that was not resolved before, unless it releases the request. -/
theorem resolution?_cons_call (g : GuardSetup σ ε) (history : History σ) (t : Traffic)
    (who : Identity) (scene : Scene σ) (c : Call) :
    resolution? g who ((t, .call who scene c) :: history) =
      if c.releases (t.setup g) who (t.state scene) then none
      else (resolution? g who history).or (c.finds? (t.setup g) (t.state scene)) := by
  rw [resolution?_cons, Step.releases, Step.finds?, if_pos rfl, beq_self_eq_true, Bool.true_and]

/-! ## What every step keeps -/

/-- What is so at every point of a run: remarks are about requests that live or whose end was not
yet told, requests that live have places of their own and are newer than all that is gone from
there, and about each of them that is remembered which it was resolved to. -/
structure Sound (g : GuardSetup σ ε) (history : History σ) (t : Traffic) : Prop where
  distinct : t.pending.DistinctPlaces
  owned : ∀ r ∈ t.pending.remarks, r.1 ∈ t.live ∨ r.1 ∈ t.gone
  apart : ∀ who ∈ t.live, ∀ other ∈ t.live, other.place = who.place → other = who
  born : ∀ who, who ∈ t.live ∨ who ∈ t.gone → who.birth < t.births
  dead : ∀ who ∈ t.gone, who ∉ t.live
  unborn : ∀ who, t.births ≤ who.birth → resolution? g who history = none
  kept : ∀ who ∈ t.live, t.pending.get? who = resolution? g who history

namespace Sound

theorem start (g : GuardSetup σ ε) (snapshot : Option Snapshot) : Sound g [] (.start snapshot) where
  distinct := List.nodup_nil
  owned := List.forall_mem_nil _
  apart := nofun
  born := nofun
  dead := nofun
  unborn _ _ := rfl
  kept := nofun

/-- Nothing is remembered about a request that is yet to come. -/
theorem get?_unborn (sound : Sound g history t) (later : t.births ≤ who.birth) :
    t.pending.get? who = none := by
  rw [Option.eq_none_iff_forall_not_mem]
  intro a known
  have earlier := sound.born who (sound.owned _ (mem_of_get? known))
  omega

theorem arrive (sound : Sound g history t) {place : Nat}
    (possible : (Step.arrive place : Step σ).Possible t) :
    Sound g ((t, .arrive place) :: history) ((Step.arrive place : Step σ).next g t) := by
  have same (who : Identity) :
      resolution? g who ((t, .arrive place) :: history) = resolution? g who history :=
    resolution?_cons_of_other (.arrive place) nofun
  refine ⟨sound.distinct, ?_, ?_, ?_, ?_, ?_, ?_⟩
  · exact fun r listed => (sound.owned r listed).imp_left (Finset.mem_insert_of_mem)
  · intro who lives other otherLives samePlace
    rcases Finset.mem_insert.1 lives with rfl | lives
    · rcases Finset.mem_insert.1 otherLives with rfl | otherLives
      · rfl
      · exact absurd samePlace (possible other otherLives)
    · rcases Finset.mem_insert.1 otherLives with rfl | otherLives
      · exact absurd samePlace.symm (possible who lives)
      · exact sound.apart who lives other otherLives samePlace
  · intro who known
    rw [Step.next, Finset.mem_insert, or_assoc] at known
    rcases known with rfl | known
    · exact Nat.lt_succ_self _
    · exact Nat.lt_succ_of_lt (sound.born who known)
  · intro who gone lives
    rcases Finset.mem_insert.1 lives with rfl | lives
    · exact Nat.lt_irrefl _ (sound.born _ (.inr gone))
    · exact sound.dead who gone lives
  · intro who later
    rw [same]
    exact sound.unborn who (Nat.le_of_succ_le later)
  · intro who lives
    rw [same]
    rcases Finset.mem_insert.1 lives with rfl | lives
    · exact (sound.get?_unborn (Nat.le_refl _)).trans (sound.unborn _ (Nat.le_refl _)).symm
    · exact sound.kept who lives

theorem call (sound : Sound g history t) {scene : Scene σ} {c : Call}
    (possible : (Step.call who scene c).Possible t) :
    Sound g ((t, .call who scene c) :: history) ((Step.call who scene c).next g t) := by
  obtain ⟨touches, remembers⟩ := Call.leaves_remembers (t.setup g) who (t.state scene) c
  have same {other : Identity} (ne : other ≠ who) :
      resolution? g other ((t, .call who scene c) :: history) = resolution? g other history :=
    resolution?_cons_of_other (.call who scene c) fun same => ne (Option.some.inj same).symm
  refine ⟨touches.distinct sound.distinct, ?_, sound.apart, sound.born, sound.dead, ?_, ?_⟩
  · intro r listed
    rcases touches.old r listed with listed | about
    · exact sound.owned r listed
    · exact .inl (about ▸ possible)
  · intro other later
    have earlier := sound.born who (.inl possible)
    have ne : other ≠ who := by
      rintro rfl
      exact absurd later (Nat.not_le_of_lt earlier)
    rw [same ne]
    exact sound.unborn other later
  · intro other lives
    -- Requests that live have places of their own, so the call concerns none but its own.
    by_cases eq : other = who
    · subst eq
      rw [resolution?_cons_call, ← sound.kept other lives]
      exact remembers
    · rw [same eq, ← sound.kept other lives]
      exact touches.others other fun samePlace => eq (sound.apart who possible other lives samePlace)

theorem install (sound : Sound g history t) (s : Snapshot) :
    Sound g ((t, .install s) :: history) ((Step.install s : Step σ).next g t) where
  distinct := sound.distinct
  owned := sound.owned
  apart := sound.apart
  born := sound.born
  dead := sound.dead
  unborn who later := by
    rw [resolution?_cons_of_other (.install s) nofun]
    exact sound.unborn who later
  kept who lives := by
    rw [resolution?_cons_of_other (.install s) nofun]
    exact sound.kept who lives

theorem drop (sound : Sound g history t) (possible : (Step.drop who : Step σ).Possible t) :
    Sound g ((t, .drop who) :: history) ((Step.drop who : Step σ).next g t) := by
  refine ⟨sound.distinct, ?_, ?_, ?_, ?_, ?_, ?_⟩
  · intro r listed
    rcases sound.owned r listed with lives | gone
    · by_cases about : r.1 = who
      · exact .inr (about ▸ Finset.mem_insert_self ..)
      · exact .inl (Finset.mem_erase.2 ⟨about, lives⟩)
    · exact .inr (Finset.mem_insert_of_mem gone)
  · exact fun one lives other otherLives =>
      sound.apart one (Finset.mem_of_mem_erase lives) other (Finset.mem_of_mem_erase otherLives)
  · rintro other (lives | gone)
    · exact sound.born other (.inl (Finset.mem_of_mem_erase lives))
    · rcases Finset.mem_insert.1 gone with rfl | gone
      · exact sound.born other (.inl possible)
      · exact sound.born other (.inr gone)
  · intro other gone lives
    rcases Finset.mem_insert.1 gone with rfl | gone
    · exact Finset.notMem_erase _ _ lives
    · exact sound.dead other gone (Finset.mem_of_mem_erase lives)
  · intro other later
    rw [resolution?_cons_of_other (.drop who) nofun]
    exact sound.unborn other later
  · intro other lives
    rw [resolution?_cons_of_other (.drop who) nofun]
    exact sound.kept other (Finset.mem_of_mem_erase lives)

/-- Being told late of the end of a request does no harm to the one that has its place by now. -/
theorem tell (sound : Sound g history t) (possible : (Step.tell who : Step σ).Possible t) :
    Sound g ((t, .tell who) :: history) ((Step.tell who : Step σ).next g t) := by
  have touches := Touches.forget t.pending who
  have lacks : (t.pending.forget who).Lacks who :=
    (get?_eq_none_iff (touches.distinct sound.distinct)).1 (get?_forget_self ..)
  refine ⟨touches.distinct sound.distinct, ?_, sound.apart, ?_, ?_, ?_, ?_⟩
  · intro r listed
    have about : r.1 ≠ who := by
      rintro rfl
      exact lacks r.2 listed
    exact (sound.owned r (mem_forget listed)).imp_right fun gone => Finset.mem_erase.2 ⟨about, gone⟩
  · exact fun other known => sound.born other (known.imp_right Finset.mem_of_mem_erase)
  · exact fun other gone => sound.dead other (Finset.mem_of_mem_erase gone)
  · intro other later
    rw [resolution?_cons_of_other (.tell who) nofun]
    exact sound.unborn other later
  · intro other lives
    -- The other request may have the place of the one that is gone, but it is not that one.
    have ne : other ≠ who := by
      rintro rfl
      exact sound.dead other possible lives
    rw [resolution?_cons_of_other (.tell who) nofun, ← sound.kept other lives]
    exact get?_forget_of_ne _ ne

/-- One step. -/
theorem next (sound : Sound g history t) {step : Step σ} (possible : step.Possible t) :
    Sound g ((t, step) :: history) (step.next g t) := by
  cases step with
  | arrive place => exact sound.arrive possible
  | call who scene c => exact sound.call possible
  | install s => exact sound.install s
  | drop who => exact sound.drop possible
  | tell who => exact sound.tell possible

end Sound

theorem sound_of_run (run : Run g history t) : Sound g history t := by
  induction run with
  | start snapshot => exact .start g snapshot
  | step run possible ih => exact ih.next possible

end Invariant

/-! ## Actions are kept -/

/-- The calls about a request work with an action, whatever routes are loaded. -/
structure WorksWith (g : GuardSetup σ ε) (who : Identity) (s : GuardState σ)
    (a : Option Action) : Prop where
  looks : actionFor g who s = (.ok a, s)
  before (routes : Option Snapshot) :
    beforeAction { g with snapshot := routes } who s = beforeAction g who s
  after (routes : Option Snapshot) (returned : Json) :
    afterAction { g with snapshot := routes } who returned s = afterAction g who returned s

section Keeping

variable {g : GuardSetup σ ε} {who : Identity} {s : GuardState σ} {a : Option Action}

theorem worksWith_of_remembered (g : GuardSetup σ ε) (known : s.pending.get? who = some a) :
    WorksWith g who s a where
  looks := actionFor_of_remembered g known
  before routes := by
    rw [beforeAction, beforeAction, run_bind_ok (actionFor_of_remembered g known),
      run_bind_ok (actionFor_of_remembered { g with snapshot := routes } known)]
    rfl
  after routes returned := by
    rw [afterAction, afterAction, run_bind_ok (actionFor_of_remembered g known),
      run_bind_ok (actionFor_of_remembered { g with snapshot := routes } known)]
    rfl

/-- What a call before an action answers is the action that it looked up. -/
theorem actionFor_of_beforeAction (answered : (beforeAction g who s).1 = .ok a) :
    (actionFor g who s).1 = .ok a := by
  have ran := before_of_run (Prod.eta (beforeAction g who s)).symm
  rw [answered] at ran
  cases ran with
  | unknown lookup | unchecked lookup off => rw [lookup]
  | passed reaches checked isValid called =>
      obtain ⟨t, lookup, -⟩ := reaches
      rw [lookup]

/-- **A request keeps its action.** Take a guard after any run among requests. What it remembers is
about requests that live, or of whose end it was not told yet. About a request that lives, its calls
work with the action that was found when the request was first looked up since it was last released,
whatever routes were loaded since, and with one that is found now if there was none. What a call
before an action answers is that action, and after a call after the action nothing is remembered
about the request, however the call ends. -/
theorem keeps_actions {history : History σ} {t : Traffic} (run : Run g history t) :
    (∀ r ∈ t.pending.remarks, r.1 ∈ t.live ∨ r.1 ∈ t.gone) ∧
      ∀ who ∈ t.live, ∀ scene : Scene σ,
        (∀ a, resolution? g who history = some a →
          WorksWith (t.setup g) who (t.state scene) a) ∧
        (resolution? g who history = none →
          (actionFor (t.setup g) who (t.state scene)).1 =
            (find (t.setup g) (t.state scene)).1) ∧
        (∀ a, (beforeAction (t.setup g) who (t.state scene)).1 = .ok a →
          (actionFor (t.setup g) who (t.state scene)).1 = .ok a) ∧
        ∀ returned,
          (afterAction (t.setup g) who returned (t.state scene)).2.pending.Lacks who := by
  have sound := sound_of_run run
  refine ⟨sound.owned, fun who lives scene => ⟨fun a resolved => ?_, fun unresolved => ?_, ?_, ?_⟩⟩
  · exact worksWith_of_remembered _ ((sound.kept who lives).trans resolved)
  · rw [actionFor_fst]
    have unknown : (t.state scene).pending.get? who = none := (sound.kept who lives).trans unresolved
    rw [unknown]
  · exact fun a answered => actionFor_of_beforeAction answered
  · intro returned
    obtain ⟨touches, forgotten⟩ :=
      Call.leaves_remembers (t.setup g) who (t.state scene) (.after returned)
    exact (get?_eq_none_iff (touches.distinct sound.distinct)).1 forgotten

end Keeping

/-! ## A place that is used again -/

/-- An action of which only the name is known, and whose requests are not checked. -/
def looseAction (name : String) : Action :=
  { Action.blank with name := name, validateInput := false }

/-- Routes to one action. -/
def routesTo (name : String) : Snapshot := ⟨[("get", [⟨"/^\\/a$/", "/a", looseAction name⟩])]⟩

/-- A guard without handlers. -/
def looseGuard : GuardSetup PUnit PUnit := ⟨checkingSettings, none, []⟩

/-- A request for the action. -/
def looseScene : Scene PUnit := ⟨⟨"get", "/a", .null, .obj [], .obj []⟩, none, .null, ⟨⟩⟩

/-- A request is looked up and given up, and another one comes to its place and is looked up before
the guard is told. The routes were replaced in between and are replaced again. The second request
keeps its action. -/
theorem reusedPlace_keeps :
    ∃ (history : History PUnit) (t : Traffic), Run looseGuard history t ∧ ⟨0, 1⟩ ∈ t.live ∧
      resolution? looseGuard ⟨0, 1⟩ history = some (some (looseAction "second")) ∧
      (find (t.setup looseGuard) (t.state looseScene)).1 = .ok (some (looseAction "third")) ∧
      (actionFor (t.setup looseGuard) ⟨0, 1⟩ (t.state looseScene)).1 =
        .ok (some (looseAction "second")) := by
  have arrived := (Run.start (some (routesTo "first")) : Run looseGuard _ _).step
    (show (Step.arrive 0).Possible _ by decide)
  have called := arrived.step (show (Step.call ⟨0, 0⟩ looseScene .before).Possible _ by decide)
  have dropped := called.step (show (Step.drop ⟨0, 0⟩).Possible _ by decide)
  have replaced := dropped.step (show (Step.install (routesTo "second")).Possible _ by decide)
  have again := replaced.step (show (Step.arrive 0).Possible _ by decide)
  have calledAgain := again.step (show (Step.call ⟨0, 1⟩ looseScene .before).Possible _ by decide)
  have told := calledAgain.step (show (Step.tell ⟨0, 0⟩).Possible _ by decide)
  have run := told.step (show (Step.install (routesTo "third")).Possible _ by decide)
  obtain ⟨-, keeps⟩ := keeps_actions run
  obtain ⟨kept, -⟩ := keeps ⟨0, 1⟩ (by decide) looseScene
  have works := kept (some (looseAction "second")) (by cbv)
  exact ⟨_, _, run, by decide, by cbv, by cbv, congrArg Prod.fst works.looks⟩

end RouteContract.Guard
