import RouteContract.Proofs.Contract.Document
import RouteContract.Storage.Store

/-!
# Snapshots read back from a store

A snapshot is taken apart into rows, one for each route, and the rows of a method are put together
again in the order in which they were written (`snapshotOf_rowsOf`). A write that succeeds leaves
these rows and no others, whatever the store held before, so that the snapshot is read back from it
(`readSnapshot_of_replaceSnapshot`).
-/

set_option autoImplicit false

namespace RouteContract.Storage

/-! ## Snapshots that a store can hold -/

/-- A snapshot that a store gives back: a method occurs once, in lower case and with at least one
route, and the schemas of its actions are plain. -/
structure IsStorable (s : Snapshot) : Prop where
  distinct : (Table.keys s.routes).Nodup
  lowercase : ∀ method ∈ Table.keys s.routes, Text.Unicode.lowercase method = method
  nonempty : ∀ bucket ∈ s.routes, bucket.2 ≠ []
  plain : ∀ entry ∈ s.entries, ∀ schema ∈ entry.2.action.schemas, (Json.obj schema).IsPlain

instance (s : Snapshot) : Decidable (IsStorable s) :=
  decidable_of_iff
    ((Table.keys s.routes).Nodup ∧
      (∀ method ∈ Table.keys s.routes, Text.Unicode.lowercase method = method) ∧
      (∀ bucket ∈ s.routes, bucket.2 ≠ []) ∧
      ∀ entry ∈ s.entries, ∀ schema ∈ entry.2.action.schemas, (Json.obj schema).IsPlain)
    ⟨fun ⟨a, b, c, d⟩ => ⟨a, b, c, d⟩, fun ⟨a, b, c, d⟩ => ⟨a, b, c, d⟩⟩

theorem mem_entries {s : Snapshot} {bucket : String × List RouteEntry} {entry : RouteEntry}
    (inSnapshot : bucket ∈ s.routes) (inBucket : entry ∈ bucket.2) :
    (bucket.1, entry) ∈ s.entries :=
  List.mem_flatMap_of_mem inSnapshot (List.mem_map_of_mem inBucket)

/-! ## Rows -/

/-- A route whose row holds its document. -/
def IsKept (entry : RouteEntry) : Prop :=
  ∀ (method : String) (position : Nat), (rowOf method position entry).document = .ok entry.fields

/-- A row holds the document of its route when its contract is plain and can be written. -/
theorem isKept_of_isPlain {entry : RouteEntry}
    (plain : ∀ schema ∈ entry.action.schemas, (Json.obj schema).IsPlain)
    (writable : entry.action.toJson.isWritable = true) : IsKept entry := by
  intro method position
  rw [Action.toJson_eq_fields plain] at writable
  have read : Json.read (rowOf method position entry).action.toList = .ok entry.action.fields := by
    rw [rowOf, Action.toJson_eq_fields plain, Json.write, String.toList_ofList]
    exact Json.read_value .line (Action.isPlain_fields plain).distinct writable
  rw [Row.document, read]
  rfl

theorem isKept_of_isStorable {s : Snapshot} (storable : IsStorable s)
    (writable : isWritable s = true) {bucket : String × List RouteEntry} {entry : RouteEntry}
    (inSnapshot : bucket ∈ s.routes) (inBucket : entry ∈ bucket.2) : IsKept entry := by
  have member := mem_entries inSnapshot inBucket
  rw [isWritable, List.all_eq_true] at writable
  exact isKept_of_isPlain (storable.plain _ member) (writable _ member)

/-! ## Buckets -/

section Gather

variable {done : Table (List Json)} {method : String}

/-- The other rows of a method are gathered into its list. -/
theorem gather_rest (fresh : method ∉ Table.keys done) {entries : List RouteEntry}
    (kept : ∀ entry ∈ entries, IsKept entry) (documents : List Json) (position : Nat)
    (more : List Row) :
    gather (done ++ [(method, documents)])
      ((entries.zipIdx position).map (fun e => rowOf method e.2 e.1) ++ more) =
        gather (done ++ [(method, documents ++ entries.map RouteEntry.fields)]) more := by
  induction entries generalizing documents position with
  | nil =>
      rw [List.map_nil, List.append_nil]
      rfl
  | cons entry rest ih =>
      have others := ih fun other member => kept other (List.mem_cons_of_mem _ member)
      rw [List.zipIdx_cons, List.map_cons, List.cons_append, gather,
        kept entry (List.mem_cons_self ..)]
      dsimp only
      rw [rowOf, Table.append_last fresh, others, List.map_cons, List.append_assoc,
        List.singleton_append]

/-- The rows of a method are gathered after those of the methods before. -/
theorem gather_bucket (fresh : method ∉ Table.keys done) {entries : List RouteEntry}
    (nonempty : entries ≠ []) (kept : ∀ entry ∈ entries, IsKept entry) (more : List Row) :
    gather done (entries.zipIdx.map (fun e => rowOf method e.2 e.1) ++ more) =
      gather (done ++ [(method, entries.map RouteEntry.fields)]) more := by
  cases entries with
  | nil => exact absurd rfl nonempty
  | cons entry rest =>
      have others := gather_rest fresh
        (fun other member => kept other (List.mem_cons_of_mem _ member)) [entry.fields] 1 more
      rw [List.zipIdx_cons, List.map_cons, List.cons_append, gather,
        kept entry (List.mem_cons_self ..)]
      dsimp only
      rw [rowOf, Table.append_of_not_mem fresh, others, List.map_cons, List.singleton_append]

/-- The rows of methods are gathered one method after the other. -/
theorem gather_buckets {routes : Table (List RouteEntry)}
    (distinct : (Table.keys (done ++ Table.mapValues (List.map RouteEntry.fields) routes)).Nodup)
    (nonempty : ∀ bucket ∈ routes, bucket.2 ≠ [])
    (kept : ∀ bucket ∈ routes, ∀ entry ∈ bucket.2, IsKept entry) :
    gather done (routes.flatMap fun bucket =>
        bucket.2.zipIdx.map fun e => rowOf bucket.1 e.2 e.1) =
      .ok (done ++ Table.mapValues (List.map RouteEntry.fields) routes) := by
  induction routes generalizing done with
  | nil =>
      rw [List.flatMap_nil, gather]
      exact congrArg Except.ok (List.append_nil done).symm
  | cons bucket rest ih =>
      have fresh := Table.not_mem_keys_of_nodup distinct
      have reassociated :
          done ++ Table.mapValues (List.map RouteEntry.fields) (bucket :: rest) =
            done ++ [(bucket.1, bucket.2.map RouteEntry.fields)] ++
              Table.mapValues (List.map RouteEntry.fields) rest := by
        rw [List.append_assoc, List.singleton_append]
        rfl
      rw [reassociated] at distinct ⊢
      rw [List.flatMap_cons, gather_bucket fresh (nonempty bucket (List.mem_cons_self ..))
        (kept bucket (List.mem_cons_self ..))]
      exact ih distinct (fun other member => nonempty other (List.mem_cons_of_mem _ member))
        fun other member => kept other (List.mem_cons_of_mem _ member)

end Gather

/-- Rows that hold the documents of their routes stand for the buckets they came from, later ones
over earlier ones of the same method. -/
theorem snapshotOf_rowsOf_of_isKept {s : Snapshot} (distinct : (Table.keys s.routes).Nodup)
    (nonempty : ∀ bucket ∈ s.routes, bucket.2 ≠ [])
    (kept : ∀ bucket ∈ s.routes, ∀ entry ∈ bucket.2, IsKept entry) :
    snapshotOf (rowsOf s) = .ok ⟨Table.ofList (lowerMethods s.routes)⟩ := by
  have fresh :
      (Table.keys ([] ++ Table.mapValues (List.map RouteEntry.fields) s.routes)).Nodup := by
    rw [List.nil_append, Table.keys_mapValues]
    exact distinct
  have document : Table.mapValues Json.arr (Table.mapValues (List.map RouteEntry.fields) s.routes) =
      Table.mapValues (fun entries => .arr (entries.map RouteEntry.fields)) s.routes := by
    rw [Table.mapValues, Table.mapValues, List.map_map]
    rfl
  rw [snapshotOf, rowsOf, gather_buckets fresh nonempty kept]
  dsimp only
  rw [List.nil_append, document, Snapshot.read_of_holdBuckets (holdBuckets_fields s.routes)]
  rfl

/-- **The rows of a snapshot stand for it.** -/
theorem snapshotOf_rowsOf {s : Snapshot} (storable : IsStorable s)
    (writable : isWritable s = true) : snapshotOf (rowsOf s) = .ok s := by
  rw [snapshotOf_rowsOf_of_isKept storable.distinct storable.nonempty fun _ inSnapshot _ inBucket =>
      isKept_of_isStorable storable writable inSnapshot inBucket,
    lowerMethods_eq_self storable.lowercase, Table.ofList_eq_self storable.distinct]

/-! ## Stores -/

/-- What was written at a place stands there; nothing is written where every folder begins. -/
theorem entry?_write (d : Disk) {p : Place} (named : p.names.isEmpty = false) (e : Entry) :
    Disk.entry? (d.write p e) p = some e := by
  have first : ((d.write p e).entries.find? fun old => old.1 == p) = some (p, e) := by
    rw [Disk.write, List.find?_cons_of_pos]
    exact beq_self_eq_true p
  rw [Disk.entry?, named, if_neg Bool.false_ne_true, first]
  rfl

theorem isEmpty_names_of_openDatabase {d d' : Disk} {p : Place} {b : Database}
    (opened : d.openDatabase p = .ok (b, d')) : p.names.isEmpty = false := by
  cases unnamed : p.names.isEmpty with
  | false => rfl
  | true =>
      have folder : d.entry? p = some .folder := by
        rw [Disk.entry?, if_pos unnamed]
      rw [Disk.openDatabase, folder] at opened
      exact nomatch opened

/-- What a write that succeeds leaves: the rows of its snapshot and no others. -/
theorem replaceSnapshot_eq_ok {d d' : Disk} {p : Place} {s : Snapshot} {count : Nat}
    (written : replaceSnapshot d p s = .ok (count, d')) :
    isWritable s = true ∧ d'.entry? p = some (.database ⟨rowsOf s, true⟩) := by
  rw [replaceSnapshot] at written
  split at written
  · exact nomatch written
  · next writable =>
      refine ⟨by simpa using writable, ?_⟩
      split at written
      · exact nomatch written
      · split at written
        · exact nomatch written
        · next opened =>
            cases written
            exact entry?_write _ (isEmpty_names_of_openDatabase opened) _

/-- **A snapshot that was written is read back**, whatever the store held before. -/
theorem readSnapshot_of_replaceSnapshot {d d' : Disk} {p : Place} {s : Snapshot} {count : Nat}
    (storable : IsStorable s) (written : replaceSnapshot d p s = .ok (count, d')) :
    readSnapshot d' p = .ok (s, d') := by
  obtain ⟨writable, stored⟩ := replaceSnapshot_eq_ok written
  have found : d'.hasDatabase p = true := by
    rw [Disk.hasDatabase, stored]
  have rows : listRows d' p none = .ok (rowsOf s, d') := by
    rw [listRows, Disk.openDatabase, stored]
    rfl
  rw [readSnapshot, if_pos found, rows]
  dsimp only
  rw [snapshotOf_rowsOf storable writable]
  rfl

end RouteContract.Storage
