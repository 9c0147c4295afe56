import RouteContract.Proofs.Registry.Atomicity
import RouteContract.Proofs.Registry.Missing

/-!
# Methods that differ in letter case

A document names its methods in any letter case, and reading it puts the routes of each method under
the method in lower case. Several buckets of one document may meet there, and then the last of them
is kept: it is all that is found under the method, and none of the routes of the document is missing
exactly where the buckets before it are empty (`Snapshot.Folds`).

A store keeps methods as they are and reads them in the same way, so the same holds of a snapshot
that is persisted and loaded again; buckets without routes leave no rows (`buckets_fold`).
-/

set_option autoImplicit false

namespace RouteContract

/-! ## Buckets of one method -/

/-- The buckets whose method, in lower case, is that of a request, in order. -/
def bucketsOf (buckets : Table (List RouteEntry)) (method : String) : List (List RouteEntry) :=
  ((lowerMethods buckets).filter fun bucket =>
    bucket.1 == Text.Unicode.lowercase method).map Prod.snd

/-- Under a method stands the last of its buckets, and so all of their routes, in order, exactly
where the buckets before it are empty. -/
structure Snapshot.Folds (s : Snapshot) (method : String) (buckets : List (List RouteEntry)) :
    Prop where
  last : s.forMethod method = buckets.getLast?.getD []
  complete : s.forMethod method = buckets.flatten ↔ ∀ earlier ∈ buckets.dropLast, earlier = []
  counted : (s.forMethod method).length = (buckets.map List.length).sum ↔
    ∀ earlier ∈ buckets.dropLast, earlier = []

section Lists

variable {α : Type}

/-- The last of several lists is all of them exactly where the others are empty. -/
theorem getLast_eq_flatten_iff (lists : List (List α)) :
    lists.getLast?.getD [] = lists.flatten ↔ ∀ earlier ∈ lists.dropLast, earlier = [] := by
  induction lists using List.reverseRecOn with
  | nil => exact iff_of_true rfl fun _ listed => nomatch listed
  | append_singleton init last _ =>
      rw [List.getLast?_concat, Option.getD_some, List.dropLast_concat, List.flatten_concat,
        List.self_eq_append_left, List.flatten_eq_nil_iff]

/-- The last of several lists is as long as all of them exactly where it is all of them. -/
theorem length_getLast_eq_iff (lists : List (List α)) :
    (lists.getLast?.getD []).length = (lists.map List.length).sum ↔
      lists.getLast?.getD [] = lists.flatten := by
  rw [← List.length_flatten]
  have ends : lists.getLast?.getD [] <:+ lists.flatten := by
    induction lists using List.reverseRecOn with
    | nil => exact List.suffix_rfl
    | append_singleton init last _ =>
        rw [List.getLast?_concat, Option.getD_some, List.flatten_concat]
        exact List.suffix_append ..
  exact ⟨ends.eq_of_length, congrArg List.length⟩

/-- Of lists that are not empty, none is before the last exactly where there is at most one. -/
theorem forall_eq_nil_iff_of_filled {lists : List (List α)} (filled : ∀ l ∈ lists, l ≠ []) :
    (∀ earlier ∈ lists.dropLast, earlier = []) ↔ lists.length ≤ 1 := by
  have alone : lists.dropLast = [] ↔ lists.length ≤ 1 := by
    rw [← List.length_eq_zero_iff, List.length_dropLast]
    omega
  rw [← alone]
  constructor
  · intro empty
    rw [List.eq_nil_iff_forall_not_mem]
    intro l listed
    exact filled l (List.mem_of_mem_dropLast listed) (empty l listed)
  · intro none l listed
    rw [none] at listed
    cases listed

end Lists

/-- Where buckets are written one over the other, the last one of a method is found. -/
theorem forMethod_lowerMethods (buckets : Table (List RouteEntry)) (method : String) :
    Snapshot.forMethod ⟨Table.ofList (lowerMethods buckets)⟩ method =
      (bucketsOf buckets method).getLast?.getD [] := by
  rw [Snapshot.forMethod, Table.get?_ofList_eq_getLast?, bucketsOf]

theorem folds_lowerMethods (buckets : Table (List RouteEntry)) (method : String) :
    Snapshot.Folds ⟨Table.ofList (lowerMethods buckets)⟩ method (bucketsOf buckets method) := by
  have last := forMethod_lowerMethods buckets method
  refine ⟨last, ?_, ?_⟩
  · rw [last]
    exact getLast_eq_flatten_iff _
  · rw [last, length_getLast_eq_iff]
    exact getLast_eq_flatten_iff _

/-! ## Snapshots as a store holds them -/

/-- The names in a snapshot are distinct: those of its methods, and those in the schemas of its
actions. -/
structure Snapshot.HasDistinctNames (s : Snapshot) : Prop where
  methods : (Table.keys s.routes).Nodup
  schemas : ∀ entry ∈ s.entries, ∀ schema ∈ entry.2.action.schemas,
    (Json.obj schema).hasDistinctNames = true

instance (s : Snapshot) : Decidable s.HasDistinctNames :=
  decidable_of_iff
    ((Table.keys s.routes).Nodup ∧ ∀ entry ∈ s.entries, ∀ schema ∈ entry.2.action.schemas,
      (Json.obj schema).hasDistinctNames = true)
    ⟨fun ⟨a, b⟩ => ⟨a, b⟩, fun ⟨a, b⟩ => ⟨a, b⟩⟩

namespace Registry

open Storage

/-- The buckets of a snapshot that leave rows, as the rows hold them. -/
def storedBuckets (s : Snapshot) : Table (List RouteEntry) :=
  Table.mapValues (List.map RouteEntry.finite) (s.routes.filter fun bucket => !bucket.2.isEmpty)

theorem map_finite_ne_nil {entries : List RouteEntry} (nonempty : entries ≠ []) :
    entries.map RouteEntry.finite ≠ [] := by
  rwa [ne_eq, List.map_eq_nil_iff]

/-- The row of a route is that of the route as a document holds it. -/
theorem rowOf_finite (method : String) (position : Nat) (r : RouteEntry) :
    rowOf method position r.finite = rowOf method position r := by
  rw [rowOf, rowOf, RouteEntry.finite, r.action.toJson_finite]

theorem rowsOf_storedBuckets (s : Snapshot) : rowsOf ⟨storedBuckets s⟩ = rowsOf s := by
  rw [rowsOf, rowsOf, storedBuckets]
  induction s.routes with
  | nil => rfl
  | cons bucket rest ih =>
      obtain ⟨method, entries⟩ := bucket
      rw [List.flatMap_cons, ← ih]
      cases entries with
      | nil => rfl
      | cons first others =>
          rw [List.filter_cons_of_pos rfl, Table.mapValues, List.map_cons, List.flatMap_cons]
          congr 1
          rw [List.zipIdx_map, List.map_map]
          exact List.map_congr_left fun e _ => rowOf_finite method e.2 e.1

variable {s : Snapshot}

theorem mem_storedBuckets {stored : String × List RouteEntry} (listed : stored ∈ storedBuckets s) :
    ∃ bucket ∈ s.routes, bucket.2 ≠ [] ∧
      stored = (bucket.1, bucket.2.map RouteEntry.finite) := by
  obtain ⟨bucket, kept, rfl⟩ := List.mem_map.1 listed
  obtain ⟨inSnapshot, nonempty⟩ := List.mem_filter.1 kept
  refine ⟨bucket, inSnapshot, ?_, rfl⟩
  intro empty
  rw [empty] at nonempty
  cases nonempty

theorem nodup_keys_storedBuckets (distinct : (Table.keys s.routes).Nodup) :
    (Table.keys (storedBuckets s)).Nodup := by
  rw [storedBuckets, Table.keys_mapValues]
  exact distinct.sublist (List.filter_sublist.map Prod.fst)

/-- Rows of a snapshot are read as its stored buckets, each under its method in lower case. -/
theorem snapshotOf_rowsOf_eq_storedBuckets (distinct : s.HasDistinctNames)
    (writable : isWritable s = true) :
    snapshotOf (rowsOf s) = .ok ⟨Table.ofList (lowerMethods (storedBuckets s))⟩ := by
  rw [← rowsOf_storedBuckets]
  refine snapshotOf_rowsOf_of_isKept (nodup_keys_storedBuckets distinct.methods) ?_ ?_
  · intro stored listed
    obtain ⟨bucket, -, nonempty, rfl⟩ := mem_storedBuckets listed
    exact map_finite_ne_nil nonempty
  · intro stored listed entry inBucket
    obtain ⟨bucket, inSnapshot, -, rfl⟩ := mem_storedBuckets listed
    obtain ⟨original, declared, rfl⟩ := List.mem_map.1 inBucket
    have member := mem_entries inSnapshot declared
    rw [isWritable, List.all_eq_true] at writable
    refine isKept_of_isPlain (Action.isPlain_finite (distinct.schemas _ member)) ?_
    rw [RouteEntry.finite, Action.toJson_finite]
    exact writable _ member

/-- The buckets of a method that are not empty. -/
def filledBucketsOf (buckets : Table (List RouteEntry)) (method : String) :
    List (List RouteEntry) :=
  (bucketsOf buckets method).filter fun entries => !entries.isEmpty

/-- The stored buckets of a method are those that are not empty. -/
theorem bucketsOf_storedBuckets (s : Snapshot) (method : String) :
    bucketsOf (storedBuckets s) method =
      (filledBucketsOf s.routes method).map (List.map RouteEntry.finite) := by
  simp only [bucketsOf, filledBucketsOf, storedBuckets, lowerMethods, Table.mapValues,
    List.map_map, List.filter_map, List.filter_filter]
  rw [List.filter_congr fun bucket _ => Bool.and_comm _ _]
  rfl

/-- Of buckets that are not empty, the last is as long as all of the method exactly where there is
no other. -/
theorem counted_iff_length_le_one {buckets : Table (List RouteEntry)} {method : String}
    {t : Snapshot}
    (folds : t.Folds method ((filledBucketsOf buckets method).map (List.map RouteEntry.finite))) :
    (t.forMethod method).length = ((bucketsOf buckets method).map List.length).sum ↔
      (filledBucketsOf buckets method).length ≤ 1 := by
  have total : (((filledBucketsOf buckets method).map (List.map RouteEntry.finite)).map
      List.length).sum = ((bucketsOf buckets method).map List.length).sum := by
    rw [List.map_map, ← List.length_flatten, ← List.flatten_filter_not_isEmpty,
      List.length_flatten]
    congr 1
    exact List.map_congr_left fun entries _ => List.length_map ..
  have filled : ∀ entries ∈ (filledBucketsOf buckets method).map (List.map RouteEntry.finite),
      entries ≠ [] := by
    intro entries listed
    obtain ⟨original, member, rfl⟩ := List.mem_map.1 listed
    exact map_finite_ne_nil (by simpa using (List.mem_filter.1 member).2)
  rw [← total, folds.counted, forall_eq_nil_iff_of_filled filled, List.length_map]

/-! ## Documents and stores -/

variable {σ ε : Type}

/-- What a call that persists the snapshot in place has written. -/
theorem persist_none_eq_ok {c : Config} {st after : State σ} {count : Nat}
    (persisted : (c.persist none : Operation σ ε Nat) st = (.ok count, after)) :
    ∃ p s, c.store = some p ∧ st.snapshot = some s ∧
      replaceSnapshot st.disk p s = .ok (count, after.disk) := by
  rw [persist_none_eq] at persisted
  split at persisted
  · cases congrArg Prod.fst persisted
  · cases congrArg Prod.fst persisted
  · next p s store held =>
      rw [persist_eq store] at persisted
      split at persisted
      · next written =>
          cases persisted
          exact ⟨p, s, store, held, written⟩
      · cases congrArg Prod.fst persisted

/-- **Of buckets that meet under one method, the last is kept.** A document of buckets is read as a
snapshot in which every method has the last of its buckets. A snapshot that is persisted is loaded
again, and then every method has the last of its buckets that are not empty, so that no route of it
is missing exactly where there is at most one of them. -/
theorem buckets_fold :
    (∀ (members : Table Json) (buckets : Table (List RouteEntry)), HoldBuckets members buckets →
      ∃ t, Snapshot.read (.obj members) = .ok t ∧
        ∀ method, t.Folds method (bucketsOf buckets method)) ∧
    ∀ (c : Config) (st after : State σ) (s : Snapshot) (count : Nat),
      st.snapshot = some s → s.HasDistinctNames →
        (c.persist none : Operation σ ε Nat) st = (.ok count, after) →
          ∃ t : Snapshot,
            (∀ (reader : Config) (introspector : Introspector σ ε) (loading : State σ),
              reader.store = c.store → (reader.isLive && !reader.isGenerationDisabled) = false →
                loading.disk = after.disk →
                  reader.load introspector loading = (.ok t, { loading with snapshot := some t })) ∧
            ∀ method,
              t.Folds method ((filledBucketsOf s.routes method).map (List.map RouteEntry.finite)) ∧
              ((t.forMethod method).length = ((bucketsOf s.routes method).map List.length).sum ↔
                (filledBucketsOf s.routes method).length ≤ 1) := by
  constructor
  · intro members buckets hold
    exact ⟨_, Snapshot.read_of_holdBuckets hold, folds_lowerMethods buckets⟩
  · intro c st after s count held distinct persisted
    obtain ⟨p, t, store, same, written⟩ := persist_none_eq_ok persisted
    obtain rfl : s = t := Option.some.inj (held.symm.trans same)
    obtain ⟨writable, stands⟩ := replaceSnapshot_eq_ok written
    refine ⟨⟨Table.ofList (lowerMethods (storedBuckets s))⟩, ?_, ?_⟩
    · intro reader introspector loading sameStore stored sameDisk
      rw [load_eq (sameStore.trans store) stored, sameDisk, readSnapshot_of_stands stands,
        snapshotOf_rowsOf_eq_storedBuckets distinct writable]
      rfl
    · intro method
      have folds := folds_lowerMethods (storedBuckets s) method
      rw [bucketsOf_storedBuckets] at folds
      exact ⟨folds, counted_iff_length_le_one folds⟩

/-- A route to an action about which nothing is said. -/
def plainRoute (pattern path : String) : RouteEntry := ⟨pattern, path, Action.blank⟩

/-- Two buckets whose methods differ in letter case alone. -/
def twoCaseSnapshot : Snapshot :=
  ⟨[("GET", [plainRoute "/^\\/a$/" "/a"]), ("get", [plainRoute "/^\\/b$/" "/b"])]⟩

theorem persist_twoCaseSnapshot :
    (storeConfig.persist none : Operation Unit Unit Nat) ⟨some twoCaseSnapshot, Disk.empty, ()⟩ =
      (.ok 2,
        ⟨some twoCaseSnapshot,
          Disk.empty.write ⟨"", ["metadata.db"]⟩ (.database ⟨rowsOf twoCaseSnapshot, true⟩),
          ()⟩) := by
  have writable : isWritable twoCaseSnapshot = true := by
    decide +kernel
  rw [persist_none_eq]
  change (storeConfig.persist (some twoCaseSnapshot) : Operation Unit Unit Nat) _ = _
  rw [persist_eq rfl, replaceSnapshot, writable]
  rfl

/-- The first route of two buckets is not read from their document. A registry that persists them
answers that two routes were written, and loads the second one alone. -/
theorem twoCaseSnapshot_folds :
    ((bucketsOf twoCaseSnapshot.routes "get").map (List.map RouteEntry.path) = [["/a"], ["/b"]]) ∧
    (∃ t, Snapshot.read twoCaseSnapshot.fields = .ok t ∧
      (t.forMethod "get").map RouteEntry.path = ["/b"]) ∧
    ∃ (after loaded : State Unit) (t : Snapshot),
      (storeConfig.persist none : Operation Unit Unit Nat) ⟨some twoCaseSnapshot, Disk.empty, ()⟩ =
        (.ok 2, after) ∧
      storeConfig.load itemIntrospector after = (.ok t, loaded) ∧
      (t.forMethod "get").map RouteEntry.path = ["/b"] := by
  obtain ⟨documents, stores⟩ := buckets_fold (σ := Unit) (ε := Unit)
  refine ⟨by decide +kernel, ?_, ?_⟩
  · obtain ⟨t, read, folds⟩ := documents _ _ (holdBuckets_fields twoCaseSnapshot.routes)
    refine ⟨t, read, ?_⟩
    rw [(folds "get").last]
    decide +kernel
  · obtain ⟨t, loads, folds⟩ := stores storeConfig _ _ twoCaseSnapshot 2 rfl (by decide +kernel)
      persist_twoCaseSnapshot
    refine ⟨_, _, t, persist_twoCaseSnapshot, loads storeConfig itemIntrospector _ rfl rfl rfl, ?_⟩
    rw [(folds "get").1.last]
    decide +kernel

end Registry

end RouteContract
