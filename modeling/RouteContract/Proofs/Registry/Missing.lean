import RouteContract.Proofs.Data.Result
import RouteContract.Proofs.Registry.Persistence

/-!
# Stores to which nothing was written

A store that is read while there is no database at its place answers that there is no snapshot. The
other calls open the database, and opening makes an empty one where none is. So a store is missing
until a call that opens it is answered, and a store that was only opened is read as one that holds
no routes (`noSnapshot_iff_unopened`).
-/

set_option autoImplicit false

namespace RouteContract.Registry

open RouteContract Storage

/-! ## Calls -/

/-- A call of a store. -/
inductive StoreCall where
  /-- Ask whether there is a database. -/
  | look
  /-- List the rows, or those of one method. -/
  | list (method : Option String)
  /-- Ask whether a snapshot was ever written. -/
  | askStamp
  | read
  | replace (s : Snapshot)

namespace StoreCall

/-- The disk that a call leaves when it is answered. -/
def disk (d : Disk) (p : Place) : StoreCall → Except StoreError Disk
  | .look => .ok d
  | .list method => (listRows d p method).map Prod.snd
  | .askStamp => (isStamped d p).map Prod.snd
  | .read => (readSnapshot d p).map Prod.snd
  | .replace s => (replaceSnapshot d p s).map Prod.snd

/-- Whether a call opens the database before anything is known about it. -/
def opens : StoreCall → Bool
  | .look | .read => false
  | .list _ | .askStamp | .replace _ => true

/-- Whether a call writes a snapshot. -/
def writes : StoreCall → Bool
  | .replace _ => true
  | _ => false

end StoreCall

/-- What calls of one store have come to: the disk, and the calls that were answered. -/
structure Past where
  disk : Disk
  answered : List StoreCall

/-- Whether a call was answered that opens the database. -/
def Past.isOpened (past : Past) : Bool := past.answered.any StoreCall.opens

/-- Whether a call was answered that writes a snapshot. -/
def Past.isWritten (past : Past) : Bool := past.answered.any StoreCall.writes

/-- One more call. A call that fails leaves the disk as it was. -/
def Past.next (p : Place) (before : Past) (c : StoreCall) : Past :=
  match c.disk before.disk p with
  | .ok disk => ⟨disk, before.answered ++ [c]⟩
  | .error _ => before

/-- Calls of the store at a place, one after the other. -/
def pastOf (d : Disk) (p : Place) (calls : List StoreCall) : Past :=
  calls.foldl (Past.next p) ⟨d, []⟩

/-! ## Single calls -/

/-- What a call that is answered has found, and what it has left. -/
inductive Leaves (d : Disk) (p : Place) : StoreCall → Disk → Prop where
  /-- The call only looks. -/
  | looked {c : StoreCall} (closed : c.opens = false) (reads : c.writes = false) : Leaves d p c d
  | found {c : StoreCall} {content : Database} (reads : c.writes = false)
      (stands : d.entry? p = some (.database content)) : Leaves d p c d
  | made {c : StoreCall} {d' : Disk} (opens : c.opens = true)
      (stands : d'.entry? p = some (.database .empty)) : Leaves d p c d'
  | written {c : StoreCall} {d' : Disk} {content : Database} (opens : c.opens = true)
      (writes : c.writes = true) (stands : d'.entry? p = some (.database content)) : Leaves d p c d'

variable {d d' : Disk} {p : Place}

theorem hasDatabase_of_stands {content : Database}
    (stands : d.entry? p = some (.database content)) : d.hasDatabase p = true := by
  rw [Disk.hasDatabase, stands]

/-- Opening a database finds one, or makes an empty one. -/
theorem leaves_of_openDatabase {c : StoreCall} {content : Database} (opens : c.opens = true)
    (reads : c.writes = false) (opened : d.openDatabase p = .ok (content, d')) :
    Leaves d p c d' := by
  have named := isEmpty_names_of_openDatabase opened
  rw [Disk.openDatabase] at opened
  split at opened
  · next found stands =>
      cases opened
      exact .found reads stands
  · cases opened
  · split at opened
    · cases opened
      exact .made opens (entry?_write d named _)
    · cases opened

theorem leaves_of_disk {c : StoreCall} (answered : c.disk d p = .ok d') : Leaves d p c d' := by
  cases c with
  | look =>
      cases answered
      exact .looked rfl rfl
  | list method =>
      obtain ⟨⟨rows, left⟩, listed, rfl⟩ := map_eq_ok_iff.1 answered
      rw [listRows] at listed
      split at listed
      · cases listed
      · next opened =>
          cases listed
          exact leaves_of_openDatabase rfl rfl opened
  | askStamp =>
      obtain ⟨⟨stamped, left⟩, asked, rfl⟩ := map_eq_ok_iff.1 answered
      rw [isStamped] at asked
      split at asked
      · cases asked
      · next opened =>
          cases asked
          exact leaves_of_openDatabase rfl rfl opened
  | read =>
      obtain ⟨⟨s, left⟩, read, rfl⟩ := map_eq_ok_iff.1 answered
      rw [readSnapshot] at read
      split at read
      · next there =>
          rw [Disk.hasDatabase] at there
          split at there
          · next content stands =>
              rw [listRows, Disk.openDatabase, stands] at read
              obtain ⟨t, -, same⟩ := map_eq_ok_iff.1 read
              cases same
              exact .looked rfl rfl
          · cases there
      · cases read
  | replace s =>
      obtain ⟨⟨count, left⟩, replaced, rfl⟩ := map_eq_ok_iff.1 answered
      exact .written rfl rfl (replaceSnapshot_eq_ok replaced).2

/-! ## What stands at the place of a store -/

/-- What stands at the place of a store after calls: nothing until the database is opened, and a
database without rows until something is written. -/
structure Past.IsSound (past : Past) (p : Place) : Prop where
  unopened : past.isOpened = false → past.disk.hasDatabase p = false
  opened : past.isOpened = true → ∃ content, past.disk.entry? p = some (.database content) ∧
    (past.isWritten = false → content = .empty)

theorem isOpened_concat (disk left : Disk) (answered : List StoreCall) (c : StoreCall) :
    Past.isOpened ⟨left, answered ++ [c]⟩ = (Past.isOpened ⟨disk, answered⟩ || c.opens) := by
  simp [Past.isOpened]

theorem isWritten_concat (disk left : Disk) (answered : List StoreCall) (c : StoreCall) :
    Past.isWritten ⟨left, answered ++ [c]⟩ = (Past.isWritten ⟨disk, answered⟩ || c.writes) := by
  simp [Past.isWritten]

/-- One more call, answered or not, keeps what is said about the store. -/
theorem Past.IsSound.next {past : Past} (sound : past.IsSound p) (c : StoreCall) :
    (past.next p c).IsSound p := by
  obtain ⟨disk, answered⟩ := past
  rw [Past.next]
  split
  · next left done =>
      have isOpened := isOpened_concat disk left answered c
      have isWritten := isWritten_concat disk left answered c
      cases leaves_of_disk done with
      | looked closed reads =>
          rw [closed, Bool.or_false] at isOpened
          rw [reads, Bool.or_false] at isWritten
          exact ⟨isOpened ▸ sound.unopened, isOpened ▸ isWritten ▸ sound.opened⟩
      | found reads stands =>
          have before : Past.isOpened ⟨disk, answered⟩ = true := by
            by_contra unopened
            have absent := sound.unopened (Bool.eq_false_iff.2 unopened)
            rw [hasDatabase_of_stands stands] at absent
            cases absent
          rw [before, Bool.true_or] at isOpened
          rw [reads, Bool.or_false] at isWritten
          refine ⟨fun unopened => ?_, fun _ => isWritten ▸ sound.opened before⟩
          rw [isOpened] at unopened
          cases unopened
      | made opens stands =>
          rw [opens, Bool.or_true] at isOpened
          refine ⟨fun unopened => ?_, fun _ => ⟨_, stands, fun _ => rfl⟩⟩
          rw [isOpened] at unopened
          cases unopened
      | written opens writes stands =>
          rw [opens, Bool.or_true] at isOpened
          rw [writes, Bool.or_true] at isWritten
          refine ⟨fun unopened => ?_, fun _ => ⟨_, stands, fun unwritten => ?_⟩⟩
          · rw [isOpened] at unopened
            cases unopened
          · rw [isWritten] at unwritten
            cases unwritten
  · exact sound

theorem isSound_pastOf (absent : d.hasDatabase p = false) (calls : List StoreCall) :
    (pastOf d p calls).IsSound p := by
  have run (past : Past) (sound : past.IsSound p) : (calls.foldl (Past.next p) past).IsSound p := by
    induction calls generalizing past with
    | nil => exact sound
    | cons c rest ih => exact ih _ (sound.next c)
  exact run ⟨d, []⟩ ⟨fun _ => absent, nofun⟩

/-! ## Reading -/

theorem gather_eq_error {done : Table (List Json)} {rows : List Row} {e : StoreError}
    (failed : gather done rows = .error e) : e = .unreadable := by
  induction rows generalizing done with
  | nil => cases failed
  | cons row rest ih =>
      rw [gather] at failed
      split at failed
      · next f unread =>
          cases failed
          rw [Row.document] at unread
          split at unread
          · cases unread
            rfl
          · cases unread
      · exact ih failed

/-- Rows that stand for no snapshot are another fault than a store that is missing. -/
theorem snapshotOf_ne_noSnapshot (rows : List Row) (p : Place) :
    snapshotOf rows ≠ .error (.noSnapshot p) := by
  intro failed
  rw [snapshotOf] at failed
  split at failed
  · next e gathered =>
      rw [gather_eq_error gathered] at failed
      cases failed
  · next documents gathered =>
      cases read : Snapshot.read (.obj (Table.mapValues Json.arr documents)) with
      | ok s =>
          rw [read] at failed
          cases failed
      | error e =>
          rw [read] at failed
          cases failed

/-- A database is read as the snapshot that its rows stand for. -/
theorem readSnapshot_of_stands {content : Database}
    (stands : d.entry? p = some (.database content)) :
    readSnapshot d p = (snapshotOf content.rows).map (·, d) := by
  rw [readSnapshot, hasDatabase_of_stands stands, if_pos rfl, listRows, Disk.openDatabase, stands]
  rfl

/-- A store is missing exactly when no database stands at its place. -/
theorem readSnapshot_eq_noSnapshot_iff :
    readSnapshot d p = .error (.noSnapshot p) ↔ d.hasDatabase p = false := by
  constructor
  · intro missing
    by_contra there
    rw [Bool.not_eq_false, Disk.hasDatabase] at there
    split at there
    · next content stands =>
        rw [readSnapshot_of_stands stands] at missing
        cases rows : snapshotOf content.rows with
        | ok s =>
            rw [rows] at missing
            cases missing
        | error e =>
            rw [rows] at missing
            cases missing
            exact snapshotOf_ne_noSnapshot _ _ rows
    · cases there
  · intro absent
    rw [readSnapshot, absent, if_neg Bool.false_ne_true]

/-- **A store is missing until it is opened.** Take a place where no database stands, and any calls
of the store there. Reading answers that there is no snapshot exactly while no call has been
answered that lists the rows, asks for the stamp, or writes; so it never does after a write, and
neither does a registry that loads from the store. A store that was opened, and to which nothing was
written, is read as one without routes. -/
theorem noSnapshot_iff_unopened {σ ε : Type} (absent : d.hasDatabase p = false)
    (calls : List StoreCall) :
    let past := pastOf d p calls
    (readSnapshot past.disk p = .error (.noSnapshot p) ↔ past.isOpened = false) ∧
      (past.isOpened = true → past.isWritten = false →
        readSnapshot past.disk p = .ok (Snapshot.empty, past.disk)) ∧
      (past.isWritten = true → past.isOpened = true) ∧
      ∀ (c : Config) (introspector : Introspector σ ε) (st : State σ),
        c.store = some p → (c.isLive && !c.isGenerationDisabled) = false → st.disk = past.disk →
          ((c.load introspector st).1 = .error (.store (.noSnapshot p)) ↔
            past.isOpened = false) := by
  intro past
  have sound : past.IsSound p := isSound_pastOf absent calls
  have missing : readSnapshot past.disk p = .error (.noSnapshot p) ↔ past.isOpened = false := by
    rw [readSnapshot_eq_noSnapshot_iff]
    refine ⟨fun noDatabase => ?_, sound.unopened⟩
    by_contra opened
    obtain ⟨content, stands, -⟩ := sound.opened (Bool.not_eq_false _ ▸ opened)
    rw [hasDatabase_of_stands stands] at noDatabase
    cases noDatabase
  refine ⟨missing, fun opened unwritten => ?_, fun written => ?_, fun c introspector st store stored
    sameDisk => ?_⟩
  · obtain ⟨content, stands, empty⟩ := sound.opened opened
    rw [readSnapshot_of_stands stands, empty unwritten]
    rfl
  · obtain ⟨c, listed, writes⟩ := List.any_eq_true.1 written
    cases c with
    | replace s => exact List.any_eq_true.2 ⟨_, listed, rfl⟩
    | look | list method | askStamp | read => cases writes
  · rw [← missing, load_eq store stored, sameDisk]
    cases read : readSnapshot past.disk p with
    | ok found => exact iff_of_false nofun nofun
    | error e =>
        refine ⟨fun same => ?_, fun same => ?_⟩
        · cases same
          rfl
        · cases same
          rfl

/-- The place of a store on an empty disk. -/
def bareStore : Place := ⟨"", ["metadata.db"]⟩

/-- A place in a folder that is not there. -/
def strayStore : Place := ⟨"", ["data", "metadata.db"]⟩

/-- On an empty disk, listing the rows of a store is answered and makes it readable, though nothing
was ever written to it; listing the rows of one in a folder that is not there fails and changes
nothing. -/
theorem bareStore_unopened :
    Disk.empty.hasDatabase bareStore = false ∧ Disk.empty.hasDatabase strayStore = false ∧
      (pastOf Disk.empty bareStore [.list none]).isWritten = false ∧
      readSnapshot (pastOf Disk.empty bareStore []).disk bareStore =
        .error (.noSnapshot bareStore) ∧
      readSnapshot (pastOf Disk.empty bareStore [.list none]).disk bareStore =
        .ok (Snapshot.empty, (pastOf Disk.empty bareStore [.list none]).disk) ∧
      readSnapshot (pastOf Disk.empty strayStore [.list none]).disk strayStore =
        .error (.noSnapshot strayStore) := by
  have bare (calls : List StoreCall) :=
    noSnapshot_iff_unopened (σ := Unit) (ε := Unit) (show Disk.empty.hasDatabase bareStore = false
      by decide) calls
  have stray := noSnapshot_iff_unopened (σ := Unit) (ε := Unit)
    (show Disk.empty.hasDatabase strayStore = false by decide) [.list none]
  exact ⟨by decide, by decide, rfl, (bare []).1.2 rfl, (bare [.list none]).2.1 rfl rfl,
    stray.1.2 rfl⟩

end RouteContract.Registry
