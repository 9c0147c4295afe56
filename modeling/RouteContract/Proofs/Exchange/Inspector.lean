import RouteContract.Contract.Document
import RouteContract.Exchange.Inspector
import RouteContract.Proofs.Data.Identity
import RouteContract.Proofs.Exchange.Request

/-!
# Checkers are made once for each action

Actions come to be and are given up by whoever held them, and an inspector is asked about some of
them in between. An action that the inspector keeps checkers for lives on, so its place is not used
again; the place of any other action may be. All the same every call works with the checkers of the
action that it is about, all calls about one action work with one set of checkers, and the schemas
of an action are made ready once (`run_keeps_checkers`). A run has these properties because each of
its steps keeps what `Sound` says.

Actions that cannot be made ready are an exception: nothing is kept for them, and every call about
one of them tries again.
-/

set_option autoImplicit false

namespace RouteContract

open Schema

/-! ## Making an action ready -/

section Ready

variable {a : Action} {made : ActionCheckers}

/-- The checkers of an action, each made of the schema in its own part of the contract. -/
def Action.checkers (a : Action) : ActionCheckers :=
  ⟨⟨.obj a.params⟩, ⟨.obj a.query⟩, ⟨.obj a.body⟩, ⟨.obj a.returns⟩⟩

/-- Whether all schemas of an action can be made ready. -/
def Action.isUsable (a : Action) : Bool := (ActionCheckers.ofAction a).isOk

/-- An action that is made ready takes four schemas. -/
theorem schemaCount_eq_four (ready : ActionCheckers.ofAction a = .ok made) :
    Inspector.schemaCount a = 4 := by
  obtain ⟨params, hparams, ready⟩ := bind_eq_ok_iff.1 ready
  obtain ⟨query, hquery, ready⟩ := bind_eq_ok_iff.1 ready
  obtain ⟨body, hbody, ready⟩ := bind_eq_ok_iff.1 ready
  obtain ⟨response, hresponse, -⟩ := bind_eq_ok_iff.1 ready
  simp [Inspector.schemaCount, hparams, hquery, hbody, hresponse, Except.isOk, Except.toBool]

theorem ofAction_of_isUsable (usable : a.isUsable = true) :
    ActionCheckers.ofAction a = .ok a.checkers := by
  cases ready : ActionCheckers.ofAction a with
  | error e =>
      rw [Action.isUsable, ready] at usable
      cases usable
  | ok made => rw [ofAction_eq_ok ready, Action.checkers]

end Ready

namespace Inspector

variable {i : Inspector} {a : HeldAction}

/-! ## One call -/

/-- **All ways in which an inspector comes by the checkers of an action**: it has kept them, it
makes them now and keeps them, or they cannot be made. -/
inductive Provides (i : Inspector) (a : HeldAction) :
    Except Fault CheckerSet → Inspector → Prop where
  | kept {set : CheckerSet} (known : i.known.get? a.identity = some set) : Provides i a (.ok set) i
  | made (unknown : i.known.get? a.identity = none) (usable : a.action.isUsable = true) :
      Provides i a (.ok ⟨i.compiled, a.action.checkers⟩)
        ⟨i.known.put a.identity ⟨i.compiled, a.action.checkers⟩, i.compiled + 4⟩
  | unusable {e : Fault} (unknown : i.known.get? a.identity = none)
      (failed : ActionCheckers.ofAction a.action = .error e) :
      Provides i a (.error e) { i with compiled := i.compiled + schemaCount a.action }

theorem provides_checkersOf (i : Inspector) (a : HeldAction) :
    Provides i a (i.checkersOf a).1 (i.checkersOf a).2 := by
  rw [checkersOf]
  cases known : i.known.get? a.identity with
  | some set => exact .kept known
  | none =>
      cases ready : ActionCheckers.ofAction a.action with
      | error e => exact .unusable known ready
      | ok made =>
          have usable : a.action.isUsable = true := by
            rw [Action.isUsable, ready]
            rfl
          obtain rfl : made = a.action.checkers := ofAction_eq_ok ready
          simp only [schemaCount_eq_four ready]
          exact .made known usable

/-- What an inspector may be asked about an action. -/
inductive Query where
  | checkers
  | request (r : Request)
  | response (r : Response)

/-- What an inspector is after a call. -/
def Query.leaves (i : Inspector) (a : HeldAction) : Query → Inspector
  | .checkers => (i.checkersOf a).2
  | .request r => (i.checkRequest a r).2
  | .response r => (i.checkResponse a r).2

/-- Every call comes by the checkers in the same way. -/
theorem Query.leaves_eq (i : Inspector) (a : HeldAction) (q : Query) :
    q.leaves i a = (i.checkersOf a).2 := by
  cases q <;> rfl

end Inspector

/-! ## Runs -/

/-- An inspector among actions: the actions that others hold, and how many actions there were. -/
structure Inspection where
  inspector : Inspector
  held : List HeldAction
  births : Nat

namespace Inspection

/-- An inspector before the first action. -/
def start : Inspection := ⟨.fresh, [], 0⟩

/-- Whether an action is kept at a place, by someone else or by the inspector. -/
def Occupies (t : Inspection) (place : Nat) : Prop :=
  (∃ a ∈ t.held, a.identity.place = place) ∨ ∃ r ∈ t.inspector.known.remarks, r.1.place = place

instance (t : Inspection) (place : Nat) : Decidable (t.Occupies place) :=
  inferInstanceAs (Decidable ((∃ a ∈ t.held, a.identity.place = place) ∨
    ∃ r ∈ t.inspector.known.remarks, r.1.place = place))

/-- What may happen. -/
inductive Step where
  /-- An action comes to be at a place. -/
  | create (place : Nat) (a : Action)
  /-- The inspector is called about an action. -/
  | ask (a : HeldAction) (q : Inspector.Query)
  /-- An action is given up by its holder. -/
  | drop (a : HeldAction)

namespace Step

/-- Whether a step can be taken: a place is used again only when no action is kept there, and
actions are asked about by those who hold them. -/
def Possible (t : Inspection) : Step → Prop
  | .create place _ => ¬ t.Occupies place
  | .ask a _ => a ∈ t.held
  | .drop a => a ∈ t.held

/-- What a step leads to. -/
def next (t : Inspection) : Step → Inspection
  | .create place a =>
      { t with held := ⟨⟨place, t.births⟩, a⟩ :: t.held, births := t.births + 1 }
  | .ask a q => { t with inspector := q.leaves t.inspector a }
  | .drop a => { t with held := t.held.filter fun other => other.identity ≠ a.identity }

end Step

/-- The steps of a run, the last one first, each with what it was taken in. -/
abbrev History := List (Inspection × Step)

/-- The runs of an inspector among actions. -/
inductive Run : History → Inspection → Prop where
  | start : Run [] .start
  | step {history : History} {t : Inspection} {step : Step} (run : Run history t)
      (possible : step.Possible t) : Run ((t, step) :: history) (step.next t)

/-- The calls of a run, the last one first: the action, and the set of checkers the call worked
with. -/
def calls (history : History) : List (HeldAction × Except Fault CheckerSet) :=
  history.filterMap fun entry =>
    match entry.2 with
    | .ask a _ => some (a, (entry.1.inspector.checkersOf a).1)
    | .create _ _ | .drop _ => none

/-- What calls were about, as often as they were. -/
def subjects (history : History) : List HeldAction := (calls history).map Prod.fst

/-- The actions that calls were about and that can be made ready. -/
def usableSubjects (history : History) : List HeldAction :=
  (subjects history).filter fun a => a.action.isUsable

/-- The actions that calls were about and that cannot be made ready. -/
def unusableSubjects (history : History) : List HeldAction :=
  (subjects history).filter fun a => !a.action.isUsable

/-- How often schemas are made ready in a run: four times for each usable action that a call was
about, and again in every call about an action that is unusable. -/
def expectedCount (history : History) : Nat :=
  4 * ((usableSubjects history).map HeldAction.identity).dedup.length +
    ((unusableSubjects history).map fun a => Inspector.schemaCount a.action).sum

/-- Whether an action is among those that the run still speaks about. -/
def Mentions (history : History) (t : Inspection) (a : HeldAction) : Prop :=
  a ∈ t.held ∨ a ∈ subjects history

section Invariant

variable {history : History} {t : Inspection} {a b : HeldAction} {set : CheckerSet}

@[simp] theorem calls_cons_create (history : History) (t : Inspection) (place : Nat) (a : Action) :
    calls ((t, .create place a) :: history) = calls history := rfl

@[simp] theorem calls_cons_drop (history : History) (t : Inspection) (a : HeldAction) :
    calls ((t, .drop a) :: history) = calls history := rfl

@[simp] theorem calls_cons_ask (history : History) (t : Inspection) (a : HeldAction)
    (q : Inspector.Query) :
    calls ((t, .ask a q) :: history) = (a, (t.inspector.checkersOf a).1) :: calls history := rfl

theorem mem_subjects {answer : Except Fault CheckerSet} (called : (a, answer) ∈ calls history) :
    a ∈ subjects history :=
  List.mem_map_of_mem called

/-! ## How often schemas are made ready -/

section Count

variable {q : Inspector.Query}

theorem mem_usable {answer : Except Fault CheckerSet} (usable : a.action.isUsable = true)
    (called : (a, answer) ∈ calls history) :
    a.identity ∈ (usableSubjects history).map HeldAction.identity :=
  List.mem_map_of_mem (List.mem_filter.2 ⟨mem_subjects called, usable⟩)

theorem usableSubjects_cons_ask (history : History) (t : Inspection) (a : HeldAction)
    (q : Inspector.Query) :
    usableSubjects ((t, .ask a q) :: history) =
      if a.action.isUsable then a :: usableSubjects history else usableSubjects history :=
  List.filter_cons

theorem unusableSubjects_cons_ask (history : History) (t : Inspection) (a : HeldAction)
    (q : Inspector.Query) :
    unusableSubjects ((t, .ask a q) :: history) =
      if !a.action.isUsable then a :: unusableSubjects history else unusableSubjects history :=
  List.filter_cons

theorem expectedCount_cons_of_known (usable : a.action.isUsable = true)
    (known : a.identity ∈ (usableSubjects history).map HeldAction.identity) :
    expectedCount ((t, .ask a q) :: history) = expectedCount history := by
  rw [expectedCount, usableSubjects_cons_ask, unusableSubjects_cons_ask, if_pos usable, if_neg,
    List.map_cons, List.dedup_cons_of_mem known, expectedCount]
  simp [usable]

theorem expectedCount_cons_of_unknown (usable : a.action.isUsable = true)
    (unknown : a.identity ∉ (usableSubjects history).map HeldAction.identity) :
    expectedCount ((t, .ask a q) :: history) = expectedCount history + 4 := by
  rw [expectedCount, usableSubjects_cons_ask, unusableSubjects_cons_ask, if_pos usable, if_neg,
    List.map_cons, List.dedup_cons_of_notMem unknown, List.length_cons, expectedCount]
  · omega
  · simp [usable]

theorem expectedCount_cons_of_unusable (unusable : a.action.isUsable = false) :
    expectedCount ((t, .ask a q) :: history) =
      expectedCount history + Inspector.schemaCount a.action := by
  rw [expectedCount, usableSubjects_cons_ask, unusableSubjects_cons_ask, if_neg, if_pos,
    List.map_cons, List.sum_cons, expectedCount]
  · omega
  · simp [unusable]
  · simp [unusable]

end Count

/-! ## What steps keep -/

/-- What a run has established. -/
structure Sound (history : History) (t : Inspection) : Prop where
  /-- There is one remark for each place. -/
  distinct : t.inspector.known.DistinctPlaces
  /-- Actions came to be before now. -/
  born : ∀ a, Mentions history t a → a.identity.birth < t.births
  /-- An identity belongs to one action. -/
  single : ∀ a, Mentions history t a → ∀ b, Mentions history t b → a.identity = b.identity → a = b
  /-- Actions that are held have places of their own. -/
  apart : ∀ a ∈ t.held, ∀ b ∈ t.held, a.identity.place = b.identity.place → a.identity = b.identity
  /-- A remark at the place of an action that is held is about this action. -/
  own : ∀ a ∈ t.held, ∀ r ∈ t.inspector.known.remarks, r.1.place = a.identity.place →
    r.1 = a.identity
  /-- Remarks come from calls. -/
  called : ∀ r ∈ t.inspector.known.remarks, ∃ a, a.identity = r.1 ∧ (a, .ok r.2) ∈ calls history
  /-- What a call worked with is kept. -/
  kept : ∀ a set, (a, .ok set) ∈ calls history → t.inspector.known.get? a.identity = some set
  /-- What a call worked with was made of the action that it was about, before now. -/
  made : ∀ a set, (a, .ok set) ∈ calls history →
    a.action.isUsable = true ∧ set.checkers = a.action.checkers ∧ set.number < t.inspector.compiled
  /-- Sets that were made for two actions were made at two times. -/
  numbered : ∀ a set, (a, .ok set) ∈ calls history → ∀ b other, (b, .ok other) ∈ calls history →
    set.number = other.number → a.identity = b.identity
  /-- Calls fail as making the action ready does. -/
  failed : ∀ a e, (a, .error e) ∈ calls history → ActionCheckers.ofAction a.action = .error e
  counted : t.inspector.compiled = expectedCount history

namespace Sound

/-- A remark about an action that the run speaks about comes from a call about this action. -/
theorem mem_of_get? (sound : Sound history t) (mentions : Mentions history t a)
    (known : t.inspector.known.get? a.identity = some set) : (a, .ok set) ∈ calls history := by
  obtain ⟨b, same, called⟩ := sound.called _ (IdentityMemory.mem_of_get? known)
  rw [sound.single a mentions b (.inr (mem_subjects called)) same.symm]
  exact called

/-- Nothing is known about an action when no call about it succeeded. -/
theorem notMem_of_unknown (sound : Sound history t)
    (unknown : t.inspector.known.get? a.identity = none) :
    a.identity ∉ (usableSubjects history).map HeldAction.identity := by
  intro listed
  obtain ⟨_, usable, same⟩ := List.mem_map.1 listed
  obtain ⟨subject, usable⟩ := List.mem_filter.1 usable
  obtain ⟨⟨b, answer⟩, called, rfl⟩ := List.mem_map.1 subject
  cases answer with
  | error e =>
      rw [Action.isUsable, sound.failed b e called] at usable
      cases usable
  | ok set =>
      rw [← same, sound.kept b set called] at unknown
      cases unknown

theorem start : Sound [] .start where
  distinct := List.nodup_nil
  born _ mentions := by rcases mentions with h | h <;> cases h
  single _ mentions := by rcases mentions with h | h <;> cases h
  apart _ held := nomatch held
  own _ held := nomatch held
  called _ listed := nomatch listed
  kept _ _ called := nomatch called
  made _ _ called := nomatch called
  numbered _ _ called := nomatch called
  failed _ _ called := nomatch called
  counted := rfl

/-- An action that comes to be is a new one, and its place was free. -/
theorem create (sound : Sound history t) {place : Nat} {a : Action}
    (possible : (Step.create place a).Possible t) :
    Sound ((t, .create place a) :: history) ((Step.create place a).next t) := by
  have old : ∀ b, Mentions ((t, .create place a) :: history) ((Step.create place a).next t) b →
      b = ⟨⟨place, t.births⟩, a⟩ ∨ Mentions history t b := by
    rintro b (held | subject)
    · exact (List.mem_cons.1 held).imp_right .inl
    · exact .inr (.inr subject)
  have later : ∀ b, Mentions history t b → b.identity ≠ ⟨place, t.births⟩ := fun b mentions same =>
    Nat.lt_irrefl t.births (by simpa [same] using sound.born b mentions)
  refine ⟨sound.distinct, ?_, ?_, ?_, ?_, sound.called, sound.kept, sound.made, sound.numbered,
    sound.failed, sound.counted⟩
  · intro b mentions
    rcases old b mentions with rfl | mentions
    · exact Nat.lt_succ_self t.births
    · exact Nat.lt_succ_of_lt (sound.born b mentions)
  · intro b mentions c mentions' same
    rcases old b mentions with rfl | mentions <;> rcases old c mentions' with rfl | mentions'
    · rfl
    · exact absurd same.symm (later c mentions')
    · exact absurd same (later b mentions)
    · exact sound.single b mentions c mentions' same
  · intro b held c held' same
    rcases List.mem_cons.1 held with rfl | held <;> rcases List.mem_cons.1 held' with rfl | held'
    · rfl
    · exact absurd (.inl ⟨c, held', same.symm⟩) possible
    · exact absurd (.inl ⟨b, held, same⟩) possible
    · exact sound.apart b held c held' same
  · intro b held r listed same
    rcases List.mem_cons.1 held with rfl | held
    · exact absurd (.inr ⟨r, listed, same⟩) possible
    · exact sound.own b held r listed same

theorem drop (sound : Sound history t) (a : HeldAction) :
    Sound ((t, .drop a) :: history) ((Step.drop a).next t) := by
  have old : ∀ b, Mentions ((t, .drop a) :: history) ((Step.drop a).next t) b →
      Mentions history t b := fun b => Or.imp_left List.mem_of_mem_filter
  exact
    { sound with
      born := fun b mentions => sound.born b (old b mentions)
      single := fun b mentions c mentions' =>
        sound.single b (old b mentions) c (old c mentions')
      apart := fun b held c held' =>
        sound.apart b (List.mem_of_mem_filter held) c (List.mem_of_mem_filter held')
      own := fun b held => sound.own b (List.mem_of_mem_filter held) }

section Ask

variable {q : Inspector.Query}

/-- A call speaks about an action that is held. -/
theorem mentions_of_ask (possible : a ∈ t.held)
    (mentions : Mentions ((t, .ask a q) :: history) ((Step.ask a q).next t) b) :
    Mentions history t b := by
  rcases mentions with held | subject
  · exact .inl held
  · rcases List.mem_cons.1 subject with rfl | subject
    · exact .inl possible
    · exact .inr subject

/-- A call about an action that checkers are kept for. -/
theorem askKnown (sound : Sound history t) (possible : a ∈ t.held)
    (provided : t.inspector.checkersOf a = (.ok set, t.inspector))
    (known : t.inspector.known.get? a.identity = some set) :
    Sound ((t, .ask a q) :: history) ((Step.ask a q).next t) := by
  have next : (Step.ask a q).next t = t := by
    rw [Step.next, Inspector.Query.leaves_eq, provided]
  have again : (a, .ok set) ∈ calls history := sound.mem_of_get? (.inl possible) known
  have old : ∀ c ∈ calls ((t, .ask a q) :: history), c ∈ calls history := by
    intro c called
    rw [calls_cons_ask, provided] at called
    rcases List.mem_cons.1 called with rfl | called
    · exact again
    · exact called
  have mentions : ∀ b, Mentions ((t, .ask a q) :: history) t b → Mentions history t b :=
    fun b mentions => mentions_of_ask (q := q) possible (next.symm ▸ mentions)
  rw [next]
  exact
    { sound with
      born := fun b h => sound.born b (mentions b h)
      single := fun b h c h' => sound.single b (mentions b h) c (mentions c h')
      called := fun r listed => by
        obtain ⟨b, same, called⟩ := sound.called r listed
        exact ⟨b, same, .tail _ called⟩
      kept := fun b other called => sound.kept b other (old _ called)
      made := fun b other called => sound.made b other (old _ called)
      numbered := fun b s called c s' called' =>
        sound.numbered b s (old _ called) c s' (old _ called')
      failed := fun b e called => sound.failed b e (old _ called)
      counted := by
        rw [expectedCount_cons_of_known (sound.made a set again).1
          (mem_usable (sound.made a set again).1 again)]
        exact sound.counted }

/-- A call that makes checkers and keeps them. -/
theorem askNew (sound : Sound history t) (possible : a ∈ t.held)
    (unknown : t.inspector.known.get? a.identity = none) (usable : a.action.isUsable = true)
    (made : set = ⟨t.inspector.compiled, a.action.checkers⟩)
    (provided : t.inspector.checkersOf a =
      (.ok set, ⟨t.inspector.known.put a.identity set, t.inspector.compiled + 4⟩)) :
    Sound ((t, .ask a q) :: history) ((Step.ask a q).next t) := by
  have next : ((Step.ask a q).next t).inspector =
      ⟨t.inspector.known.put a.identity set, t.inspector.compiled + 4⟩ := by
    rw [Step.next, Inspector.Query.leaves_eq, provided]
  have touches := IdentityMemory.Touches.put t.inspector.known a.identity set
  have old : ∀ b answer, (b, answer) ∈ calls ((t, .ask a q) :: history) →
      (b = a ∧ answer = .ok set) ∨ (b, answer) ∈ calls history := by
    intro b answer called
    rw [calls_cons_ask, provided] at called
    exact (List.mem_cons.1 called).imp_left Prod.mk.inj
  -- Remarks at the place would be about this action, of which nothing is known.
  have elsewhere : ∀ b other, (b, .ok other) ∈ calls history →
      b.identity.place ≠ a.identity.place := by
    intro b other called same
    have kept := sound.kept b other called
    have about : b.identity = a.identity :=
      sound.own a possible _ (IdentityMemory.mem_of_get? kept) same
    rw [about, unknown] at kept
    cases kept
  exact
    { distinct := next ▸ touches.distinct sound.distinct
      born := fun b h => sound.born b (mentions_of_ask possible h)
      single := fun b h c h' =>
        sound.single b (mentions_of_ask possible h) c (mentions_of_ask possible h')
      apart := sound.apart
      own := by
        intro b held r listed same
        rw [next] at listed
        rcases touches.old r listed with listed | about
        · exact sound.own b held r listed same
        · rw [about] at same ⊢
          exact sound.apart a possible b held same
      called := by
        intro r listed
        rw [next] at listed
        rcases List.mem_cons.1 listed with rfl | listed
        · refine ⟨a, rfl, ?_⟩
          rw [calls_cons_ask, provided]
          exact List.mem_cons_self ..
        · obtain ⟨b, same, called⟩ := sound.called r (List.mem_of_mem_filter listed)
          exact ⟨b, same, .tail _ called⟩
      kept := by
        intro b other called
        rw [next]
        rcases old b _ called with ⟨rfl, same⟩ | called
        · cases Except.ok.inj same
          exact IdentityMemory.get?_put_self ..
        · rw [touches.others _ (elsewhere b other called)]
          exact sound.kept b other called
      made := by
        intro b other called
        rw [next]
        rcases old b _ called with ⟨rfl, same⟩ | called
        · obtain rfl := Except.ok.inj same
          rw [made]
          exact ⟨usable, rfl, Nat.lt_add_of_pos_right (by decide)⟩
        · obtain ⟨usable, made, earlier⟩ := sound.made b other called
          exact ⟨usable, made, Nat.lt_add_right 4 earlier⟩
      numbered := by
        intro b s called c s' called' same
        rcases old b _ called with ⟨rfl, eq⟩ | before <;>
          rcases old c _ called' with ⟨rfl, eq'⟩ | before'
        · rfl
        · rw [Except.ok.inj eq, made] at same
          exact absurd same (sound.made c s' before').2.2.ne'
        · rw [Except.ok.inj eq', made] at same
          exact absurd same (sound.made b s before).2.2.ne
        · exact sound.numbered b s before c s' before' same
      failed := by
        intro b e called
        rcases old b _ called with ⟨-, eq⟩ | called
        · cases eq
        · exact sound.failed b e called
      counted := by
        rw [next, expectedCount_cons_of_unknown usable (sound.notMem_of_unknown unknown)]
        exact congrArg (· + 4) sound.counted }

/-- A call that fails keeps nothing. -/
theorem askUnusable (sound : Sound history t) (possible : a ∈ t.held) {e : Fault}
    (failed : ActionCheckers.ofAction a.action = .error e)
    (provided : t.inspector.checkersOf a = (.error e, { t.inspector with
      compiled := t.inspector.compiled + Inspector.schemaCount a.action })) :
    Sound ((t, .ask a q) :: history) ((Step.ask a q).next t) := by
  have unusable : a.action.isUsable = false := by
    rw [Action.isUsable, failed]
    rfl
  have next : ((Step.ask a q).next t).inspector = { t.inspector with
      compiled := t.inspector.compiled + Inspector.schemaCount a.action } := by
    rw [Step.next, Inspector.Query.leaves_eq, provided]
  have old : ∀ b set, (b, .ok set) ∈ calls ((t, .ask a q) :: history) →
      (b, .ok set) ∈ calls history := by
    intro b set called
    rw [calls_cons_ask, provided] at called
    rcases List.mem_cons.1 called with same | called
    · cases same
    · exact called
  exact
    { distinct := next ▸ sound.distinct
      born := fun b h => sound.born b (mentions_of_ask possible h)
      single := fun b h c h' =>
        sound.single b (mentions_of_ask possible h) c (mentions_of_ask possible h')
      apart := sound.apart
      own := by
        rw [next]
        exact sound.own
      called := by
        rw [next]
        intro r listed
        obtain ⟨b, same, called⟩ := sound.called r listed
        exact ⟨b, same, .tail _ called⟩
      kept := by
        rw [next]
        exact fun b set called => sound.kept b set (old b set called)
      made := by
        intro b set called
        rw [next]
        obtain ⟨usable, made, earlier⟩ := sound.made b set (old b set called)
        exact ⟨usable, made, Nat.lt_add_right _ earlier⟩
      numbered := fun b s called c s' called' =>
        sound.numbered b s (old b s called) c s' (old c s' called')
      failed := by
        intro b e' called
        rw [calls_cons_ask, provided] at called
        rcases List.mem_cons.1 called with same | called
        · cases same
          exact failed
        · exact sound.failed b e' called
      counted := by
        rw [next, expectedCount_cons_of_unusable unusable]
        exact congrArg (· + _) sound.counted }

theorem ask (sound : Sound history t) (possible : (Step.ask a q).Possible t) :
    Sound ((t, .ask a q) :: history) ((Step.ask a q).next t) := by
  have provides := Inspector.provides_checkersOf t.inspector a
  generalize provided : t.inspector.checkersOf a = outcome at provides
  obtain ⟨answer, i⟩ := outcome
  cases provides with
  | kept known => exact sound.askKnown possible provided known
  | made unknown usable => exact sound.askNew possible unknown usable rfl provided
  | unusable unknown failed => exact sound.askUnusable possible failed provided

end Ask

theorem next (sound : Sound history t) {step : Step} (possible : step.Possible t) :
    Sound ((t, step) :: history) (step.next t) := by
  cases step with
  | create place a => exact sound.create possible
  | ask a q => exact sound.ask possible
  | drop a => exact sound.drop a

end Sound

theorem sound_of_run (run : Run history t) : Sound history t := by
  induction run with
  | start => exact .start
  | step run possible ih => exact ih.next possible

end Invariant

/-! ## Checkers are kept -/

/-- Calls about an action work with checkers of its own schemas, or fail as making these ready does.
-/
structure ChecksWith (i : Inspector) (a : HeldAction) : Prop where
  checkers : (i.checkersOf a).1.map CheckerSet.checkers = ActionCheckers.ofAction a.action
  request (r : Request) : (i.checkRequest a r).1 = a.action.checkRequest r
  response (r : Response) : (i.checkResponse a r).1 = a.action.checkResponse r

theorem checksWith_of_checkers {i : Inspector} {a : HeldAction}
    (checkers : (i.checkersOf a).1.map CheckerSet.checkers = ActionCheckers.ofAction a.action) :
    ChecksWith i a where
  checkers := checkers
  request r := by
    rw [Action.checkRequest, ← checkers]
    show (i.checkersOf a).1.bind (·.checkers.checkRequest r) = _
    cases (i.checkersOf a).1 <;> rfl
  response r := by
    rw [Action.checkResponse, ← checkers]
    show (i.checkersOf a).1.bind (·.checkers.checkResponse r) = _
    cases (i.checkersOf a).1 <;> rfl

section Keeping

variable {history : History} {t : Inspection} {a : HeldAction}

theorem Sound.checksWith (sound : Sound history t) (held : a ∈ t.held) :
    ChecksWith t.inspector a := by
  refine checksWith_of_checkers ?_
  have provides := Inspector.provides_checkersOf t.inspector a
  generalize t.inspector.checkersOf a = outcome at provides ⊢
  obtain ⟨answer, i⟩ := outcome
  cases provides with
  | kept known =>
      obtain ⟨usable, made, -⟩ := sound.made a _ (sound.mem_of_get? (.inl held) known)
      rw [ofAction_of_isUsable usable, ← made]
      rfl
  | made unknown usable =>
      rw [ofAction_of_isUsable usable]
      rfl
  | unusable unknown failed =>
      rw [failed]
      rfl

/-- What a call in a run worked with was made of the action that it was about. -/
theorem Sound.checkers_of_mem (sound : Sound history t) {answer : Except Fault CheckerSet}
    (called : (a, answer) ∈ calls history) :
    answer.map CheckerSet.checkers = ActionCheckers.ofAction a.action := by
  cases answer with
  | error e => exact (sound.failed a e called).symm
  | ok set =>
      obtain ⟨usable, made, -⟩ := sound.made a set called
      rw [ofAction_of_isUsable usable, ← made]
      rfl

/-- Two calls about one action worked with one set. -/
theorem Sound.eq_of_identity (sound : Sound history t) {b : HeldAction} {set other : CheckerSet}
    (called : (a, .ok set) ∈ calls history) (called' : (b, .ok other) ∈ calls history)
    (same : a.identity = b.identity) : a = b ∧ set = other := by
  have kept := sound.kept a set called
  rw [same, sound.kept b other called'] at kept
  exact ⟨sound.single a (.inr (mem_subjects called)) b (.inr (mem_subjects called')) same,
    (Option.some.inj kept).symm⟩

/-- **Checkers are made once for each action.** Take an inspector after any run among actions, some
of which may be equal to one another, were given up, or have the place of one that was. A call
about any action that is held works with checkers of exactly its own schemas, each in its own part,
and so did all calls before. Two of the calls worked with the same set of checkers exactly if they
were about the same action. Schemas were made ready four times for each action that a call was
about; for one that is unusable, every call about it tried again and got no further than its first
unusable schema. -/
theorem run_keeps_checkers (run : Run history t) :
    (∀ a ∈ t.held, ChecksWith t.inspector a) ∧
      (∀ a answer, (a, answer) ∈ calls history →
        answer.map CheckerSet.checkers = ActionCheckers.ofAction a.action) ∧
      (∀ a set, (a, .ok set) ∈ calls history → ∀ b other, (b, .ok other) ∈ calls history →
        (set.number = other.number ↔ a.identity = b.identity) ∧
          (a.identity = b.identity → a = b ∧ set = other)) ∧
      t.inspector.compiled = expectedCount history := by
  have sound := sound_of_run run
  refine ⟨fun a held => sound.checksWith held, fun a answer called => sound.checkers_of_mem called,
    fun a set called b other called' => ⟨⟨?_, fun same => ?_⟩, ?_⟩, sound.counted⟩
  · exact sound.numbered a set called b other called'
  · rw [(sound.eq_of_identity called called' same).2]
  · exact sound.eq_of_identity called called'

end Keeping

/-! ## Two equal actions, and one that is unusable -/

/-- An action of which only the name is known. -/
def plainAction : Action := { Action.blank with name := "plain" }

/-- An action whose parameters have a schema with a number for an address. -/
def addressedAction : Action := { Action.blank with params := [("$id", .int 5)] }

/-- An action is called about and given up. Another one is given up before any call, and a third
one, equal to the first, comes to its place and is called about twice. It has checkers of its own.
-/
theorem equalActions_keep :
    ∃ (history : History) (t : Inspection) (first second : HeldAction),
      Run history t ∧ first.action = second.action ∧
        (calls history).map (fun c => (c.1.identity, c.2.toOption.map CheckerSet.number)) =
          [(second.identity, some 4), (second.identity, some 4), (first.identity, some 0)] ∧
        t.inspector.compiled = 8 ∧
        ∀ r, (t.inspector.checkRequest second r).1 = plainAction.checkRequest r := by
  have first := Run.start.step (show (Step.create 0 plainAction).Possible _ by
    rw [Step.Possible]
    decide)
  have asked := first.step (show (Step.ask ⟨⟨0, 0⟩, plainAction⟩ .checkers).Possible _ from
    List.mem_cons_self ..)
  have dropped := asked.step (show (Step.drop ⟨⟨0, 0⟩, plainAction⟩).Possible _ from
    List.mem_cons_self ..)
  have other := dropped.step (show (Step.create 1 addressedAction).Possible _ by
    rw [Step.Possible]
    decide)
  have gone := other.step (show (Step.drop ⟨⟨1, 1⟩, addressedAction⟩).Possible _ from
    List.mem_cons_self ..)
  have second := gone.step (show (Step.create 1 plainAction).Possible _ by
    rw [Step.Possible]
    decide)
  have met := second.step (show (Step.ask ⟨⟨1, 2⟩, plainAction⟩ .checkers).Possible _ from
    List.mem_cons_self ..)
  have run := met.step (show (Step.ask ⟨⟨1, 2⟩, plainAction⟩ .checkers).Possible _ from
    List.mem_cons_self ..)
  obtain ⟨checks, -, -, counted⟩ := run_keeps_checkers run
  exact ⟨_, _, ⟨⟨0, 0⟩, plainAction⟩, ⟨⟨1, 2⟩, plainAction⟩, run, rfl, by decide,
    counted.trans (by decide), (checks _ (List.mem_cons_self ..)).request⟩

/-- One action is called about, and one of its schemas cannot be made ready: the call works with no
checkers, and schemas were not made ready four times. -/
theorem unusableAction_fails :
    ∃ (history : History) (t : Inspection) (a : HeldAction),
      Run history t ∧ calls history = [(a, .error .notASchema)] ∧
        t.inspector.compiled ≠ 4 * ((subjects history).map HeldAction.identity).dedup.length := by
  have created := Run.start.step (show (Step.create 0 addressedAction).Possible _ by
    rw [Step.Possible]
    decide)
  have run := created.step (show (Step.ask ⟨⟨0, 0⟩, addressedAction⟩ .checkers).Possible _ from
    List.mem_cons_self ..)
  exact ⟨_, _, _, run, rfl, by decide⟩

end Inspection

end RouteContract
