import Mathlib.Data.List.Forall2
import Mathlib.Data.List.Induction
import Mathlib.Data.List.Nodup
import RouteContract.Data.Table

/-!
# Reading tables that were written entry by entry

A table that is written from a list of entries holds, under each name, the last entry of that name
(`get?_ofList`), at the place of the first one. Names are never written twice, so that a list of
entries with distinct names is left as it is (`ofList_eq_self`).
-/

set_option autoImplicit false

namespace RouteContract.Table

variable {α β : Type}

/-! ## Looking up in lists of entries -/

theorem get?_cons_self (name : String) (value : α) (rest : Table α) :
    get? ((name, value) :: rest) name = some value := by
  rw [get?, if_pos rfl]

theorem get?_cons_of_ne {name key : String} (h : name ≠ key) (value : α) (rest : Table α) :
    get? ((name, value) :: rest) key = get? rest key := by
  rw [get?, if_neg h]

theorem get?_append (t s : Table α) (key : String) :
    get? (t ++ s) key = (get? t key).or (get? s key) := by
  induction t with
  | nil => rfl
  | cons entry rest ih =>
      obtain ⟨name, value⟩ := entry
      by_cases h : name = key
      · subst h
        rw [List.cons_append, get?_cons_self, get?_cons_self, Option.some_or]
      · rw [List.cons_append, get?_cons_of_ne h, get?_cons_of_ne h, ih]

theorem get?_eq_none_iff {t : Table α} {key : String} : get? t key = none ↔ key ∉ keys t := by
  rw [← has_iff_mem_keys, has, Bool.not_eq_true, Option.isSome_eq_false_iff,
    Option.isNone_iff_eq_none]

theorem mem_keys_of_mem {t : Table α} {entry : String × α} (h : entry ∈ t) : entry.1 ∈ keys t :=
  List.mem_map_of_mem h

/-- In a table with distinct names every entry is the one that is read. -/
theorem get?_eq_some_of_mem {t : Table α} (distinct : (keys t).Nodup) {key : String} {value : α}
    (h : (key, value) ∈ t) : get? t key = some value := by
  induction t with
  | nil => cases h
  | cons entry rest ih =>
      obtain ⟨name, old⟩ := entry
      rw [keys, List.map_cons, List.nodup_cons] at distinct
      rcases List.mem_cons.1 h with same | h
      · cases same
        exact get?_cons_self key value rest
      · have hne : name ≠ key := by
          rintro rfl
          have listed := mem_keys_of_mem h
          exact distinct.1 listed
        rw [get?_cons_of_ne hne]
        exact ih distinct.2 h

theorem get?_eq_some_iff_mem {t : Table α} (distinct : (keys t).Nodup) {key : String} {value : α} :
    get? t key = some value ↔ (key, value) ∈ t :=
  ⟨mem_of_get?, get?_eq_some_of_mem distinct⟩

theorem keys_reverse (t : Table α) : keys t.reverse = (keys t).reverse := List.map_reverse

theorem get?_reverse {t : Table α} (distinct : (keys t).Nodup) (key : String) :
    get? t.reverse key = get? t key := by
  have reversed : (keys t.reverse).Nodup := by
    rw [keys_reverse]
    exact List.nodup_reverse.2 distinct
  apply Option.ext
  intro value
  rw [get?_eq_some_iff_mem reversed, get?_eq_some_iff_mem distinct, List.mem_reverse]

theorem keys_mapValues (f : α → β) (t : Table α) : keys (mapValues f t) = keys t := by
  rw [keys, mapValues, List.map_map]
  rfl

theorem get?_map (f : String → α → β) (t : Table α) (key : String) :
    get? (t.map fun entry => (entry.1, f entry.1 entry.2)) key = (get? t key).map (f key) := by
  induction t with
  | nil => rfl
  | cons entry rest ih =>
      obtain ⟨name, value⟩ := entry
      rw [List.map_cons, get?, get?]
      split
      · next same =>
          subst same
          rfl
      · exact ih

/-! ## Writing entry by entry -/

theorem putAll_nil (t : Table α) : putAll t [] = t := rfl

theorem putAll_cons (t : Table α) (entry : String × α) (s : Table α) :
    putAll t (entry :: s) = putAll (put t entry.1 entry.2) s := rfl

/-- A value that is changed with its name may be changed before it is written. -/
theorem map_put (f : String → α → β) (t : Table α) (key : String) (value : α) :
    (put t key value).map (fun entry => (entry.1, f entry.1 entry.2)) =
      put (t.map fun entry => (entry.1, f entry.1 entry.2)) key (f key value) := by
  induction t with
  | nil => rfl
  | cons entry rest ih =>
      obtain ⟨name, old⟩ := entry
      rw [List.map_cons, put, put]
      split
      · next same =>
          subst same
          rfl
      · rw [List.map_cons, ih]

theorem map_putAll (f : String → α → β) (t s : Table α) :
    (putAll t s).map (fun entry => (entry.1, f entry.1 entry.2)) =
      putAll (t.map fun entry => (entry.1, f entry.1 entry.2))
        (s.map fun entry => (entry.1, f entry.1 entry.2)) := by
  induction s generalizing t with
  | nil => rfl
  | cons entry rest ih => rw [putAll_cons, ih, map_put, List.map_cons, putAll_cons]

theorem get?_put (t : Table α) (name key : String) (value : α) :
    get? (put t name value) key = if name = key then some value else get? t key := by
  by_cases h : name = key
  · subst h
    rw [get?_put_self, if_pos rfl]
  · rw [get?_put_of_ne t (Ne.symm h), if_neg h]

/-- Under each name stands the last entry that was written there. -/
theorem get?_putAll (t s : Table α) (key : String) :
    get? (putAll t s) key = (get? s.reverse key).or (get? t key) := by
  induction s generalizing t with
  | nil => rfl
  | cons entry rest ih =>
      obtain ⟨name, value⟩ := entry
      rw [putAll_cons, ih, get?_put, List.reverse_cons, get?_append, Option.or_assoc, get?]
      by_cases h : name = key
      · rw [if_pos h, if_pos h, Option.some_or]
      · rw [if_neg h, if_neg h, get?_nil, Option.none_or]

theorem get?_ofList (entries : List (String × α)) (key : String) :
    get? (ofList entries) key = get? entries.reverse key := by
  rw [ofList, get?_putAll, get?_nil, Option.or_none]

theorem get?_eq_head? (t : Table α) (key : String) :
    get? t key = ((t.filter fun entry => entry.1 == key).map Prod.snd).head? := by
  induction t with
  | nil => rfl
  | cons entry rest ih =>
      obtain ⟨name, value⟩ := entry
      by_cases same : name = key
      · subst same
        rw [get?_cons_self, List.filter_cons_of_pos (by simp)]
        rfl
      · rw [get?_cons_of_ne same, ih, List.filter_cons_of_neg]
        simpa using same

/-- The value under a name is that of the last entry of this name. -/
theorem get?_ofList_eq_getLast? (entries : List (String × α)) (key : String) :
    get? (ofList entries) key =
      ((entries.filter fun entry => entry.1 == key).map Prod.snd).getLast? := by
  rw [get?_ofList, get?_eq_head?, List.filter_reverse, List.map_reverse, List.head?_reverse]

theorem mem_keys_put {t : Table α} {name key : String} {value : α} :
    key ∈ keys (put t name value) ↔ key = name ∨ key ∈ keys t := by
  rw [keys_put]
  split
  · next there => exact ⟨.inr, fun h => h.elim (fun same => same ▸ there) id⟩
  · rw [List.mem_append, List.mem_singleton, or_comm]

theorem nodup_keys_put {t : Table α} (distinct : (keys t).Nodup) (key : String) (value : α) :
    (keys (put t key value)).Nodup := by
  rw [keys_put]
  by_cases h : key ∈ keys t
  · rwa [if_pos h]
  · rw [if_neg h]
    exact List.nodup_append.2
      ⟨distinct, List.nodup_singleton key, fun a ha b hb => by
        rw [List.mem_singleton] at hb
        rintro rfl
        exact h (hb ▸ ha)⟩

theorem nodup_keys_putAll {t : Table α} (distinct : (keys t).Nodup) (s : Table α) :
    (keys (putAll t s)).Nodup := by
  induction s generalizing t with
  | nil => exact distinct
  | cons entry rest ih => exact ih (nodup_keys_put distinct entry.1 entry.2)

theorem nodup_keys_ofList (entries : List (String × α)) : (keys (ofList entries)).Nodup :=
  nodup_keys_putAll (t := []) List.nodup_nil entries

/-- Where names are distinct, a name does not occur before its place. -/
theorem not_mem_keys_of_nodup {t s : Table α} {key : String} {value : α}
    (distinct : (keys (t ++ (key, value) :: s)).Nodup) : key ∉ keys t := by
  intro member
  rw [keys, List.map_append] at distinct
  exact (List.nodup_append.1 distinct).2.2 key member key (List.mem_cons_self ..) rfl

/-- A name that is new goes to the end. -/
theorem put_of_not_mem {t : Table α} {key : String} (h : key ∉ keys t) (value : α) :
    put t key value = t ++ [(key, value)] := by
  induction t with
  | nil => rfl
  | cons entry rest ih =>
      obtain ⟨name, old⟩ := entry
      rw [keys, List.map_cons, List.mem_cons, not_or] at h
      rw [put, if_neg (Ne.symm h.1), ih h.2, List.cons_append]

/-- A name that is new to the first entries is written among those after them. -/
theorem put_append_of_not_mem {t : Table α} {key : String} (h : key ∉ keys t) (s : Table α)
    (value : α) : put (t ++ s) key value = t ++ put s key value := by
  induction t with
  | nil => rfl
  | cons entry rest ih =>
      obtain ⟨name, old⟩ := entry
      rw [keys, List.map_cons, List.mem_cons, not_or] at h
      rw [List.cons_append, put, if_neg (Ne.symm h.1), ih h.2, List.cons_append]

/-- The first element under a name opens its list at the end. -/
theorem append_of_not_mem {t : Table (List α)} {key : String} (h : key ∉ keys t) (value : α) :
    append t key value = t ++ [(key, [value])] := by
  rw [append, get?_eq_none_iff.2 h, put_of_not_mem h]
  rfl

/-- A further element under the last name goes to the end of its list. -/
theorem append_last {t : Table (List α)} {key : String} (h : key ∉ keys t) (values : List α)
    (value : α) : append (t ++ [(key, values)]) key value = t ++ [(key, values ++ [value])] := by
  have last : get? (t ++ [(key, values)]) key = some values := by
    rw [get?_append, get?_eq_none_iff.2 h]
    exact get?_cons_self key values []
  rw [append, last, put_append_of_not_mem h, put, if_pos rfl]
  rfl

theorem putAll_eq_append {t s : Table α} (distinct : (keys (t ++ s)).Nodup) :
    putAll t s = t ++ s := by
  induction s generalizing t with
  | nil => rw [putAll_nil, List.append_nil]
  | cons entry rest ih =>
      obtain ⟨name, value⟩ := entry
      rw [putAll_cons, put_of_not_mem (not_mem_keys_of_nodup distinct), ih]
      · rw [List.append_assoc, List.singleton_append]
      · rwa [List.append_assoc, List.singleton_append]

/-- Entries with distinct names are a table as they stand. -/
theorem ofList_eq_self {entries : List (String × α)} (distinct : (keys entries).Nodup) :
    ofList entries = entries :=
  putAll_eq_append distinct

/-- The entry that is read under a name is the last one of that name. -/
theorem get?_ofList_eq_some_iff {entries : List (String × α)} {key : String} {value : α} :
    get? (ofList entries) key = some value ↔
      ∃ i, entries[i]? = some (key, value) ∧
        ∀ (j : Nat) (entry : String × α), i < j → entries[j]? = some entry → entry.1 ≠ key := by
  rw [get?_ofList]
  induction entries using List.reverseRecOn with
  | nil => simp
  | append_singleton init last ih =>
      obtain ⟨name, found⟩ := last
      rw [List.reverse_append, List.reverse_singleton, List.singleton_append]
      by_cases h : name = key
      · subst h
        rw [get?_cons_self]
        constructor
        · intro same
          cases same
          refine ⟨init.length, List.getElem?_concat_length, fun j entry hj found => ?_⟩
          rw [List.getElem?_eq_none (by simp; omega)] at found
          cases found
        · rintro ⟨i, hi, later⟩
          have bound := (List.getElem?_eq_some_iff.1 hi).1
          rw [List.length_append, List.length_singleton] at bound
          rcases Nat.lt_or_ge i init.length with lt | ge
          · exact absurd rfl (later init.length _ lt List.getElem?_concat_length)
          · obtain rfl : i = init.length := by omega
            rw [List.getElem?_concat_length, Option.some.injEq, Prod.mk.injEq] at hi
            rw [hi.2]
      · rw [get?_cons_of_ne h, ih]
        constructor
        · rintro ⟨i, hi, later⟩
          have bound := (List.getElem?_eq_some_iff.1 hi).1
          refine ⟨i, by rwa [List.getElem?_append_left bound], fun j entry hj found => ?_⟩
          rcases Nat.lt_trichotomy j init.length with lt | rfl | gt
          · rw [List.getElem?_append_left lt] at found
            exact later j entry hj found
          · rw [List.getElem?_concat_length] at found
            cases found
            exact h
          · rw [List.getElem?_eq_none (by simp; omega)] at found
            cases found
        · rintro ⟨i, hi, later⟩
          have bound := (List.getElem?_eq_some_iff.1 hi).1
          rw [List.length_append, List.length_singleton] at bound
          rcases Nat.lt_or_ge i init.length with lt | ge
          · rw [List.getElem?_append_left lt] at hi
            refine ⟨i, hi, fun j entry hj found => later j entry hj ?_⟩
            have bound := (List.getElem?_eq_some_iff.1 found).1
            rwa [List.getElem?_append_left bound]
          · obtain rfl : i = init.length := by omega
            rw [List.getElem?_concat_length, Option.some.injEq, Prod.mk.injEq] at hi
            exact absurd hi.1 h

/-! ## Entries -/

/-- In tables whose entries are related one by one under the same names, the entries of a name are
related. -/
theorem get?_of_forall₂ {R : String × α → String × β → Prop} {t : Table α} {s : Table β}
    (h : List.Forall₂ R t s) (same : ∀ e f, R e f → f.1 = e.1) {key : String} {value : α}
    (found : get? t key = some value) : ∃ w, get? s key = some w ∧ R (key, value) (key, w) := by
  induction h with
  | nil => cases found
  | @cons e f t s first _ ih =>
      obtain ⟨name, u⟩ := e
      obtain ⟨name', w⟩ := f
      obtain rfl : name' = name := same _ _ first
      by_cases here : name' = key
      · subst here
        rw [get?_cons_self] at found
        cases found
        exact ⟨w, get?_cons_self .., first⟩
      · rw [get?_cons_of_ne here] at found
        rw [get?_cons_of_ne here]
        exact ih found

/-- What holds of the entries of two tables holds when one is written over the other. -/
theorem forall_mem_put {P : String × α → Prop} {t : Table α} {key : String} {value : α}
    (old : ∀ e ∈ t, P e) (new : P (key, value)) : ∀ e ∈ put t key value, P e := by
  induction t with
  | nil =>
      intro e listed
      rw [put, List.mem_singleton] at listed
      exact listed ▸ new
  | cons entry rest ih =>
      obtain ⟨name, before⟩ := entry
      rw [put]
      split
      · next same =>
          subst same
          exact List.forall_mem_cons.2 ⟨new, fun e listed => old e (List.mem_cons_of_mem _ listed)⟩
      · exact List.forall_mem_cons.2 ⟨old _ (List.mem_cons_self ..),
          ih fun e listed => old e (List.mem_cons_of_mem _ listed)⟩

theorem forall_mem_putAll {P : String × α → Prop} {t s : Table α} (old : ∀ e ∈ t, P e)
    (new : ∀ e ∈ s, P e) : ∀ e ∈ putAll t s, P e := by
  induction s generalizing t with
  | nil => exact old
  | cons entry rest ih =>
      rw [putAll_cons]
      exact ih (forall_mem_put old (new entry (List.mem_cons_self ..)))
        fun e listed => new e (List.mem_cons_of_mem _ listed)

/-- The entries of a table under several names. -/
theorem keys_filterMap_get? (t : Table α) (names : List String) :
    keys (names.filterMap fun n => (get? t n).map fun value => (n, value)) =
      names.filter fun n => has t n := by
  induction names with
  | nil => rfl
  | cons name rest ih =>
      rw [List.filterMap_cons, List.filter_cons, has]
      cases get? t name with
      | none => exact ih
      | some value => exact congrArg (name :: ·) ih

/-- An entry of a table that another one is written over is one of the upper table, or one of the
lower under a name that the upper does not have. -/
theorem mem_putAll {t s : Table α} (distinct : (keys t).Nodup) {e : String × α}
    (listed : e ∈ putAll t s) : e ∈ s ∨ e ∈ t ∧ e.1 ∉ keys s := by
  have read : get? (putAll t s) e.1 = some e.2 :=
    get?_eq_some_of_mem (nodup_keys_putAll distinct s) listed
  rw [get?_putAll] at read
  cases upper : get? s.reverse e.1 with
  | some value =>
      rw [upper] at read
      cases read
      exact .inl (List.mem_reverse.1 (mem_of_get? upper))
  | none =>
      rw [upper] at read
      refine .inr ⟨mem_of_get? read, ?_⟩
      have absent := get?_eq_none_iff.1 upper
      rwa [keys_reverse, List.mem_reverse] at absent

/-- Tables that are written one over the other have no other entries than theirs. -/
theorem mem_foldl_putAll (tables : List (Table α)) :
    (keys (tables.foldl putAll [])).Nodup ∧
      ∀ e ∈ tables.foldl putAll [], ∃ table ∈ tables, e ∈ table := by
  refine List.foldlRecOn (motive := fun done : Table α => (keys done).Nodup ∧
    ∀ e ∈ done, ∃ table ∈ tables, e ∈ table) tables _ ⟨List.nodup_nil, List.forall_mem_nil _⟩ ?_
  intro done before table listed
  exact ⟨nodup_keys_putAll before.1 table,
    forall_mem_putAll before.2 fun e member => ⟨table, listed, member⟩⟩

theorem mem_of_mem_ofList {entries : List (String × α)} {e : String × α}
    (listed : e ∈ ofList entries) : e ∈ entries :=
  (mem_putAll (t := []) List.nodup_nil listed).resolve_right fun h => List.not_mem_nil h.1

theorem mem_keys_ofList {entries : List (String × α)} {key : String} :
    key ∈ keys (ofList entries) ↔ key ∈ keys entries := by
  rw [← not_iff_not, ← get?_eq_none_iff, get?_ofList, get?_eq_none_iff, keys_reverse,
    List.mem_reverse]

end RouteContract.Table
