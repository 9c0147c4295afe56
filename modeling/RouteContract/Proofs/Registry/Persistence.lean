import RouteContract.Proofs.Storage.Snapshot
import RouteContract.Registry.Basic

/-!
# Writing snapshots and loading them

Snapshots are written to one store, one call after the other, and some of the calls may fail. A call
that fails leaves everything as it was (`persist_error`), and after one that succeeds the store
holds its snapshot and nothing of those before. So whatever the calls came to, the snapshot that is
read back is the one that was last written, and a registry that loads it looks up routes in it
(`writeAll_persists`).
-/

set_option autoImplicit false

namespace RouteContract.Registry

open Storage

variable {σ ε : Type}

/-! ## Single operations -/

/-- What a call that writes a snapshot comes to. -/
theorem persist_eq {c : Config} {p : Place} (store : c.store = some p) (s : Snapshot)
    (st : State σ) :
    (c.persist (some s) : Operation σ ε Nat) st =
      match replaceSnapshot st.disk p s with
      | .ok (count, disk) => (.ok count, { st with disk := disk })
      | .error e => (.error (.store e), st) := by
  rw [Config.persist, Config.place, store]
  change onDisk (fun disk => replaceSnapshot disk p s) st = _
  rw [onDisk]
  cases replaceSnapshot st.disk p s <;> rfl

/-- A call that fails leaves the state as it was. -/
theorem persist_error {c : Config} {s : Snapshot} {st after : State σ} {e : RegistryError ε}
    (failed : (c.persist (some s) : Operation σ ε Nat) st = (.error e, after)) : after = st := by
  cases store : c.store with
  | none =>
      rw [Config.persist, Config.place, store] at failed
      exact (congrArg Prod.snd failed).symm
  | some p =>
      rw [persist_eq store] at failed
      split at failed
      · exact nomatch congrArg Prod.fst failed
      · exact (congrArg Prod.snd failed).symm

/-- What comes after an operation that answers goes on in the state it left. -/
theorem bind_of_ok {α β : Type} {x : Operation σ ε α} {y : α} {st after : State σ}
    (answers : x st = (.ok y, after)) (next : α → Operation σ ε β) :
    (x >>= next) st = next y after := by
  simp only [bind, ExceptT.bind, ExceptT.mk, StateT.bind, answers]
  rfl

/-- Nothing comes after an operation that fails. -/
theorem bind_of_error {α β : Type} {x : Operation σ ε α} {e : RegistryError ε}
    {st after : State σ} (fails : x st = (.error e, after)) (next : α → Operation σ ε β) :
    (x >>= next) st = (.error e, after) := by
  simp only [bind, ExceptT.bind, ExceptT.mk, StateT.bind, fails]
  rfl

/-- A registry that is not live, or may not generate, loads what is in its store. -/
theorem load_eq {c : Config} {p : Place} (store : c.store = some p)
    (stored : (c.isLive && !c.isGenerationDisabled) = false) (introspector : Introspector σ ε)
    (st : State σ) :
    c.load introspector st =
      match readSnapshot st.disk p with
      | .ok (s, disk) => (.ok s, { st with snapshot := some s, disk := disk })
      | .error e => (.error (.store e), st) := by
  rw [Config.load, stored, if_neg Bool.false_ne_true, Config.place, store]
  change (onDisk (fun disk => readSnapshot disk p) >>= fun s =>
    install s >>= fun _ => pure s) st = _
  cases read : readSnapshot st.disk p with
  | error e =>
      have fails : (onDisk fun disk => readSnapshot disk p : Operation σ ε Snapshot) st =
          (.error (.store e), st) := by
        rw [onDisk, read]
      exact bind_of_error fails _
  | ok found =>
      obtain ⟨s, disk⟩ := found
      have answers : (onDisk fun disk => readSnapshot disk p : Operation σ ε Snapshot) st =
          (.ok s, { st with disk := disk }) := by
        rw [onDisk, read]
      exact bind_of_ok answers _

/-! ## Calls one after the other -/

/-- The state that calls have left, and the snapshot that the last successful one of them wrote. -/
structure Written (σ : Type) where
  state : State σ
  last? : Option Snapshot

/-- One more call that writes a snapshot. -/
def Config.write (c : Config) (ε : Type) (before : Written σ) (s : Snapshot) : Written σ :=
  match (c.persist (some s) : Operation σ ε Nat) before.state with
  | (.ok _, state) => ⟨state, some s⟩
  | (.error _, state) => ⟨state, before.last?⟩

/-- Calls that write snapshots, from a state on. -/
def Config.writeAll (c : Config) (ε : Type) (start : State σ) (calls : List Snapshot) : Written σ :=
  calls.foldl (c.write ε) ⟨start, none⟩

/-- A snapshot that cannot be written changes nothing. -/
theorem write_of_not_isWritable {c : Config} {p : Place} (store : c.store = some p) {s : Snapshot}
    (unwritable : isWritable s = false) (w : Written σ) : c.write ε w s = w := by
  have refused : replaceSnapshot w.state.disk p s = .error .unwritable := by
    rw [replaceSnapshot, unwritable]
    rfl
  rw [Config.write, persist_eq store, refused]

/-- The store at a place gives back the snapshot that was last written. -/
def Written.IsKept (w : Written σ) (p : Place) : Prop :=
  ∀ s, w.last? = some s → readSnapshot w.state.disk p = .ok (s, w.state.disk)

/-- One more call, successful or not, leaves a store that gives back what was last written. -/
theorem Written.IsKept.write {c : Config} {p : Place} (store : c.store = some p) {w : Written σ}
    (kept : w.IsKept p) {s : Snapshot} (storable : IsStorable s) : (c.write ε w s).IsKept p := by
  intro last same
  rw [Config.write, persist_eq store] at same ⊢
  cases written : replaceSnapshot w.state.disk p s with
  | error e =>
      rw [written] at same
      exact kept last same
  | ok answer =>
      obtain ⟨count, disk⟩ := answer
      rw [written] at same
      cases same
      exact readSnapshot_of_replaceSnapshot storable written

/-- Any calls leave a store that gives back what was last written. -/
theorem isKept_writeAll {c : Config} {p : Place} (store : c.store = some p) (start : State σ)
    {calls : List Snapshot} (storable : ∀ s ∈ calls, IsStorable s) :
    (c.writeAll ε start calls).IsKept p := by
  have run (w : Written σ) (kept : w.IsKept p) : (calls.foldl (c.write ε) w).IsKept p := by
    induction calls generalizing w with
    | nil => exact kept
    | cons s rest ih =>
        exact ih (fun other member => storable other (List.mem_cons_of_mem _ member)) _
          (kept.write store (storable s (List.mem_cons_self ..)))
  exact run ⟨start, none⟩ fun _ same => nomatch same

/-- **Nothing that is written is lost.** After any calls that write storable snapshots to one store,
from any state on: one more call that fails leaves the state as it was, the store gives back the
snapshot that the last successful call wrote, and any registry that loads from this store then holds
that snapshot, so that every lookup in it comes to the same. -/
theorem writeAll_persists {c : Config} {p : Place} (store : c.store = some p) (start : State σ)
    {calls : List Snapshot} (storable : ∀ s ∈ calls, IsStorable s) :
    (∀ (t : Snapshot) (e : RegistryError ε) (after : State σ),
      (c.persist (some t) : Operation σ ε Nat) (c.writeAll ε start calls).state =
        (.error e, after) → after = (c.writeAll ε start calls).state) ∧
    ∀ s, (c.writeAll ε start calls).last? = some s →
      readSnapshot (c.writeAll ε start calls).state.disk p =
        .ok (s, (c.writeAll ε start calls).state.disk) ∧
      ∀ (reader : Config) (introspector : Introspector σ ε) (st : State σ),
        reader.store = some p → (reader.isLive && !reader.isGenerationDisabled) = false →
          st.disk = (c.writeAll ε start calls).state.disk →
            ∃ loaded, reader.load introspector st = (.ok s, loaded) ∧
              ∀ method path,
                (current loaded : Except (RegistryError ε) Snapshot × State σ).1.map
                  (Route.lookup · method path) = .ok (Route.lookup s method path) := by
  refine ⟨fun _ _ _ failed => persist_error failed, ?_⟩
  intro s last
  have read := isKept_writeAll (ε := ε) store start storable s last
  refine ⟨read, ?_⟩
  intro reader introspector st sameStore stored sameDisk
  rw [← sameDisk] at read
  have loads := load_eq sameStore stored introspector st
  rw [read] at loads
  exact ⟨_, loads, fun _ _ => rfl⟩

/-- A registry with a store that does not generate. -/
def storeConfig : Config := ⟨some ⟨"", ["metadata.db"]⟩, [], false, false⟩

/-- A single route to an action whose parameters are numbers, null, or missing. -/
def itemSnapshot : Snapshot :=
  ⟨[("get", [⟨"/^\\/items$/", "/items",
    { Action.blank with
      name := "items"
      params := [("type", .arr [.str "number", .str "null"]), ("default", .null),
        ("minimum", .float (.finite true Number.Magnitude.zero))] }⟩])]⟩

/-- A single route to an action with a status code that is too long to be written. -/
def longSnapshot : Snapshot :=
  ⟨[("get", [⟨"/^\\/items$/", "/items", { Action.blank with statusCode := 10 ^ 4300 }⟩])]⟩

theorem isWritable_longSnapshot : isWritable longSnapshot = false := by
  decide +kernel

/-- What is left of a call that succeeds and one that fails. -/
def itemHistory : Written Unit :=
  storeConfig.writeAll Unit ⟨none, Disk.empty, ()⟩ [itemSnapshot, longSnapshot]

theorem itemHistory_last? : itemHistory.last? = some itemSnapshot := by
  rw [itemHistory, Config.writeAll, List.foldl_cons, List.foldl_cons, List.foldl_nil,
    write_of_not_isWritable rfl isWritable_longSnapshot]
  rfl

/-- A snapshot that was written is read back after one that could not be written. -/
theorem itemHistory_persists :
    (∀ s ∈ [itemSnapshot, longSnapshot], IsStorable s) ∧
      itemHistory.last? = some itemSnapshot ∧
      readSnapshot itemHistory.state.disk ⟨"", ["metadata.db"]⟩ =
        .ok (itemSnapshot, itemHistory.state.disk) := by
  have storable : ∀ s ∈ [itemSnapshot, longSnapshot], IsStorable s := by
    decide +kernel
  have persists := writeAll_persists (ε := Unit) (c := storeConfig) rfl
    (⟨none, Disk.empty, ()⟩ : State Unit) storable
  rw [← itemHistory] at persists
  exact ⟨storable, itemHistory_last?, (persists.2 itemSnapshot itemHistory_last?).1⟩

end RouteContract.Registry
