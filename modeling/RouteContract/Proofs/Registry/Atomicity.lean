import RouteContract.Proofs.Data.Result
import RouteContract.Proofs.Registry.Persistence

/-!
# Calls of a registry that fail

A call that generates, loads or persists a snapshot may fail at any of its steps: the introspector
does not tell a source, a type has no schema, there is no store, the disk refuses, or what is stored
is no snapshot. Whatever the step is, the disk is as it was before the call.

The snapshot in place is as it was, too, with one exception. A live registry puts the snapshot that
it generates in place before it writes it, so that it is left there when the store refuses it. The
main statement describes the state after any failed call (`failed_call`).
-/

set_option autoImplicit false

namespace RouteContract.Registry

open RouteContract Storage

variable {σ ε : Type}

/-! ## Calls -/

/-- A call that is to replace the snapshot in place, the one in the store, or both. -/
inductive Call where
  /-- Generate from sources, those of the registry where none are given. -/
  | generate (sources : Option (List String))
  | load
  /-- Persist a snapshot, the one in place where none is given. -/
  | persist (snapshot : Option Snapshot)

/-- What a call does; the answer of one that succeeds is left out. -/
def Call.run (c : Config) (introspector : Introspector σ ε) : Call → Operation σ ε PUnit
  | .generate sources => generateFrom introspector (sources.getD c.sources) >>= fun _ => pure ⟨⟩
  | .load => c.load introspector >>= fun _ => pure ⟨⟩
  | .persist snapshot => c.persist snapshot >>= fun _ => pure ⟨⟩

/-- The snapshot that a call has put in place before its last step: that of a live registry which
loads, once it is generated. -/
def Call.putEarly? (c : Config) (introspector : Introspector σ ε) (st : State σ) :
    Call → Option Snapshot
  | .load =>
      if c.isLive && !c.isGenerationDisabled then
        (Registry.generate introspector c.sources st.memory).1.toOption
      else none
  | _ => none

/-! ## Failures of single operations -/

section Operations

variable {st after : State σ} {e : RegistryError ε}

/-- A call whose answer is left out fails as the operation does. -/
theorem discard_eq_error_iff {α : Type} {m : Operation σ ε α} :
    (m >>= fun _ => pure ⟨⟩ : Operation σ ε PUnit) st = (.error e, after) ↔
      m st = (.error e, after) := by
  rw [run_bind]
  rcases m st with ⟨result, left⟩
  cases result with
  | error f =>
      show (Except.error f, left) = (Except.error e, after) ↔ _
      rw [Prod.mk.injEq, Prod.mk.injEq, Except.error.injEq, Except.error.injEq]
  | ok a => exact iff_of_false nofun nofun

/-- The disk and the snapshot in place are as they were; the introspector may have learned. -/
structure State.Keeps (st after : State σ) : Prop where
  disk : after.disk = st.disk
  snapshot : after.snapshot = st.snapshot

theorem State.Keeps.refl (st : State σ) : st.Keeps st := ⟨rfl, rfl⟩

theorem generateFrom_eq_error {introspector : Introspector σ ε} {sources : List String}
    (failed : generateFrom introspector sources st = (.error e, after)) :
    st.Keeps after ∧ ∃ f, (generate introspector sources st.memory).1 = .error f := by
  rw [generateFrom] at failed
  rcases generated : generate introspector sources st.memory with ⟨result, memory⟩
  rw [generated] at failed
  cases result with
  | ok snapshot => exact nomatch congrArg Prod.fst failed
  | error f =>
      cases failed
      exact ⟨⟨rfl, rfl⟩, f, rfl⟩

/-- Persisting the snapshot in place is persisting a given one, once there is a store and it is
there. -/
theorem persist_none_eq (c : Config) :
    (c.persist none : Operation σ ε Nat) st =
      match c.store, st.snapshot with
      | none, _ => (.error .noStore, st)
      | some _, none => (.error .notLoaded, st)
      | some _, some s => (c.persist (some s) : Operation σ ε Nat) st := by
  cases store : c.store with
  | none =>
      rw [Config.persist, Config.place, store]
      rfl
  | some p =>
      cases held : st.snapshot with
      | none =>
          rw [Config.persist, Config.place, store]
          change (current >>= fun s => onDisk fun disk => replaceSnapshot disk p s) st = _
          rw [run_bind, current, held]
      | some s =>
          rw [Config.persist, Config.place, store]
          change (current >>= fun s => onDisk fun disk => replaceSnapshot disk p s) st =
            (c.persist (some s) : Operation σ ε Nat) st
          rw [run_bind, current, held, persist_eq store]
          simp only [onDisk]
          cases replaceSnapshot st.disk p s <;> rfl

theorem persist_eq_error {c : Config} {snapshot : Option Snapshot}
    (failed : (c.persist snapshot : Operation σ ε Nat) st = (.error e, after)) : after = st := by
  cases snapshot with
  | some s => exact persist_error failed
  | none =>
      rw [persist_none_eq] at failed
      split at failed
      · exact (congrArg Prod.snd failed).symm
      · exact (congrArg Prod.snd failed).symm
      · exact persist_error failed

theorem load_stored_eq_error {c : Config} {introspector : Introspector σ ε}
    (stored : (c.isLive && !c.isGenerationDisabled) = false)
    (failed : c.load introspector st = (.error e, after)) : after = st := by
  cases store : c.store with
  | none =>
      rw [Config.load, stored, if_neg Bool.false_ne_true, Config.place, store] at failed
      exact (congrArg Prod.snd failed).symm
  | some p =>
      rw [load_eq store stored] at failed
      split at failed
      · cases congrArg Prod.fst failed
      · exact (congrArg Prod.snd failed).symm

/-- A live registry generates a snapshot, puts it in place, and writes it if it has a store. -/
theorem load_live_eq {c : Config} (live : (c.isLive && !c.isGenerationDisabled) = true)
    (introspector : Introspector σ ε) :
    c.load introspector st =
      match generate introspector c.sources st.memory with
      | (.error f, memory) => (.error (.generation f), { st with memory := memory })
      | (.ok s, memory) =>
          match c.store with
          | none => (.ok s, { st with snapshot := some s, memory := memory })
          | some p =>
              match replaceSnapshot st.disk p s with
              | .ok (_, disk) => (.ok s, ⟨some s, disk, memory⟩)
              | .error refusal =>
                  (.error (.store refusal), { st with snapshot := some s, memory := memory }) := by
  rw [Config.load, live, if_pos rfl, run_bind, generateFrom]
  rcases generate introspector c.sources st.memory with ⟨result, memory⟩
  cases result with
  | error f => rfl
  | ok s =>
      cases c.store with
      | none => rfl
      | some p =>
          simp only [run_bind, onDisk]
          cases replaceSnapshot st.disk p s <;> rfl

/-- A load of a live registry fails while it generates, or when the store refuses what it has
generated. -/
theorem load_live_eq_error {c : Config} {introspector : Introspector σ ε}
    (live : (c.isLive && !c.isGenerationDisabled) = true)
    (failed : c.load introspector st = (.error e, after)) :
    (st.Keeps after ∧ ∃ f, (generate introspector c.sources st.memory).1 = .error f) ∨
      ∃ s p refusal, (generate introspector c.sources st.memory).1 = .ok s ∧
        after.disk = st.disk ∧ after.snapshot = some s ∧ c.store = some p ∧
        replaceSnapshot st.disk p s = .error refusal ∧ e = .store refusal := by
  rw [load_live_eq live] at failed
  split at failed
  · next f memory told =>
      cases failed
      exact .inl ⟨⟨rfl, rfl⟩, f, congrArg Prod.fst told⟩
  · next s memory told =>
      split at failed
      · exact nomatch congrArg Prod.fst failed
      · next p store =>
          split at failed
          · exact nomatch congrArg Prod.fst failed
          · next refusal refused =>
              cases failed
              exact .inr ⟨s, p, refusal, congrArg Prod.fst told, rfl, rfl, store, refused, rfl⟩

end Operations

/-! ## Failed calls -/

/-- **What a call that fails leaves behind.** The disk is as it was before. The snapshot in place is
as it was, unless the call has put one in place early: then that one is in place, and what failed is
the write of it. -/
theorem failed_call {c : Config} {introspector : Introspector σ ε} {call : Call}
    {st after : State σ} {e : RegistryError ε}
    (failed : call.run c introspector st = (.error e, after)) :
    after.disk = st.disk ∧
      after.snapshot = (call.putEarly? c introspector st).or st.snapshot ∧
      ∀ s, call.putEarly? c introspector st = some s →
        ∃ p refusal, c.store = some p ∧ replaceSnapshot st.disk p s = .error refusal ∧
          e = .store refusal := by
  cases call with
  | generate sources =>
      obtain ⟨kept, -⟩ := generateFrom_eq_error (discard_eq_error_iff.1 failed)
      exact ⟨kept.disk, kept.snapshot, nofun⟩
  | persist snapshot =>
      obtain rfl := persist_eq_error (discard_eq_error_iff.1 failed)
      exact ⟨rfl, rfl, nofun⟩
  | load =>
      have failed := discard_eq_error_iff.1 failed
      rw [Call.putEarly?]
      cases live : c.isLive && !c.isGenerationDisabled with
      | false =>
          obtain rfl := load_stored_eq_error live failed
          exact ⟨rfl, rfl, nofun⟩
      | true =>
          rw [if_pos rfl]
          rcases load_live_eq_error live failed with ⟨kept, f, told⟩ |
            ⟨s, p, refusal, told, disk, snapshot, store, refused, rfl⟩
          · rw [told]
            exact ⟨kept.disk, kept.snapshot, nofun⟩
          · rw [told]
            refine ⟨disk, snapshot, ?_⟩
            rintro _ ⟨⟩
            exact ⟨p, refusal, store, refused, rfl⟩

/-- An introspector that tells one route of one controller, whatever it is asked. -/
def itemIntrospector : Introspector Unit Unit :=
  ⟨fun _ memory =>
    (.ok ⟨⟨#[]⟩, [⟨"Items", [⟨"items", [⟨"GET", "/items"⟩], none, none, none, none, [], {}⟩]⟩]⟩,
      memory)⟩

/-- A live registry whose store stands where a folder is. -/
def folderConfig : Config := ⟨some ⟨"", ["data"]⟩, ["items"], true, false⟩

/-- A registry that holds nothing yet, and a folder where its store should be. -/
def folderState : State Unit := ⟨none, ⟨[(⟨"", ["data"]⟩, .folder)]⟩, ()⟩

/-- The load fails and nothing is stored, and yet the registry, which held nothing, holds a snapshot
afterwards. -/
theorem folderConfig_failed_call :
    ∃ after : State Unit,
      Call.load.run folderConfig itemIntrospector folderState =
        (.error (.store (.disk .unopenable)), after) ∧
      after.disk = folderState.disk ∧ folderState.snapshot = none ∧
      after.snapshot.map (fun s => s.routes.map fun bucket => (bucket.1, bucket.2.map (·.path))) =
        some [("get", ["/items"])] := by
  have told : ((generate itemIntrospector ["items"] ()).1.toOption.map fun s =>
      (isWritable s, s.routes.map fun bucket => (bucket.1, bucket.2.map (·.path)))) =
        some (true, [("get", ["/items"])]) := by
    decide +kernel
  obtain ⟨s, generated, same⟩ := Option.map_eq_some_iff.1 told
  obtain ⟨writable, listed⟩ := Prod.mk.inj same
  have refused : replaceSnapshot folderState.disk ⟨"", ["data"]⟩ s =
      .error (.disk .unopenable) := by
    rw [replaceSnapshot, writable]
    rfl
  obtain ⟨after, failed⟩ : ∃ after, Call.load.run folderConfig itemIntrospector folderState =
      (.error (.store (.disk .unopenable)), after) := by
    refine ⟨⟨some s, folderState.disk, ()⟩, discard_eq_error_iff.2 ?_⟩
    have answer : generate itemIntrospector ["items"] () = (.ok s, ()) := by
      cases result : (generate itemIntrospector ["items"] ()).1 with
      | error f =>
          rw [result] at generated
          cases generated
      | ok t =>
          rw [result] at generated
          cases generated
          exact Prod.ext result rfl
    rw [load_live_eq (c := folderConfig) rfl]
    simp only [folderConfig, folderState, answer] at refused ⊢
    rw [refused]
  obtain ⟨disk, snapshot, -⟩ := failed_call failed
  have early : Call.load.putEarly? folderConfig itemIntrospector folderState = some s := generated
  refine ⟨after, failed, disk, rfl, ?_⟩
  rw [snapshot, early, Option.some_or, Option.map_some, listed]

end RouteContract.Registry
