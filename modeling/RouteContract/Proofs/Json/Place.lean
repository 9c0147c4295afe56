import RouteContract.Json.Writer
import RouteContract.Pointer

/-!
# Places inside a value

A place inside a value is named by the steps that lead to it, each by a key of an object or an index
of an array. Following steps one after the other is following them together (`at?_append`). What
stands at some place of a value is a part of it (`IsPart`), and parts of parts are parts.
-/

set_option autoImplicit false

namespace RouteContract.Json

open Pointer

/-- The part of a value that one step leads to. -/
def child? : Json → Step → Option Json
  | .obj members, .key name => Table.get? members name
  | .arr items, .index position => items[position]?
  | _, _ => none

/-- The part of a value that steps lead to, one after the other. -/
def at? : Json → List Step → Option Json
  | v, [] => some v
  | v, step :: rest => (child? v step).bind (at? · rest)

@[simp] theorem at?_nil (v : Json) : v.at? [] = some v := rfl

theorem at?_cons (v : Json) (step : Step) (rest : List Step) :
    v.at? (step :: rest) = (v.child? step).bind (·.at? rest) := rfl

theorem at?_append (v : Json) (first second : List Step) :
    v.at? (first ++ second) = (v.at? first).bind (·.at? second) := by
  induction first generalizing v with
  | nil => rfl
  | cons step rest ih =>
      rw [List.cons_append, at?_cons, at?_cons]
      cases v.child? step with
      | none => rfl
      | some part => exact ih part

@[simp] theorem child?_obj_key (members : List (String × Json)) (name : String) :
    (Json.obj members).child? (.key name) = Table.get? members name := rfl

@[simp] theorem child?_arr_index (items : List Json) (position : Nat) :
    (Json.arr items).child? (.index position) = items[position]? := rfl

@[simp] theorem child?_obj_index (members : List (String × Json)) (position : Nat) :
    (Json.obj members).child? (.index position) = none := rfl

@[simp] theorem child?_arr_key (items : List Json) (name : String) :
    (Json.arr items).child? (.key name) = none := rfl

@[simp] theorem child?_str (s : String) (step : Step) : (Json.str s).child? step = none := by
  cases step <;> rfl

@[simp] theorem child?_bool (b : Bool) (step : Step) : (Json.bool b).child? step = none := by
  cases step <;> rfl

/-! ## Parts -/

/-- A value is a part of another one: that value itself, or a part of an item or of a member. -/
inductive IsPart : Json → Json → Prop where
  | self (v : Json) : IsPart v v
  | item {part item : Json} {items : List Json} (listed : item ∈ items) (below : IsPart part item) :
      IsPart part (.arr items)
  | member {part : Json} {entry : String × Json} {members : List (String × Json)}
      (listed : entry ∈ members) (below : IsPart part entry.2) : IsPart part (.obj members)

namespace IsPart

variable {part middle whole : Json}

theorem trans (inner : IsPart part middle) (outer : IsPart middle whole) : IsPart part whole := by
  induction outer with
  | self => exact inner
  | item listed _ ih => exact .item listed ih
  | member listed _ ih => exact .member listed ih

theorem of_item {item : Json} {items : List Json} (listed : item ∈ items) :
    IsPart item (.arr items) := .item listed (.self item)

theorem of_member {entry : String × Json} {members : List (String × Json)}
    (listed : entry ∈ members) : IsPart entry.2 (.obj members) := .member listed (.self entry.2)

theorem of_get? {members : List (String × Json)} {name : String}
    (found : Table.get? members name = some part) : IsPart part (.obj members) :=
  of_member (Table.mem_of_get? found)

theorem of_child? {step : Step} (child : whole.child? step = some part) : IsPart part whole := by
  cases whole with
  | null | bool b | int i | float x | str s => cases step <;> cases child
  | obj members =>
      cases step with
      | key name => exact of_get? child
      | index i => cases child
  | arr items =>
      cases step with
      | key name => cases child
      | index i => exact of_item (List.mem_of_getElem? child)

theorem weight_le (h : IsPart part whole) : part.weight ≤ whole.weight := by
  induction h with
  | self => exact Nat.le_refl _
  | item listed _ ih =>
      have le := weight_le_weightItems listed
      rw [weight.eq_def (.arr _)]
      simp only
      omega
  | member listed _ ih =>
      have lt := weight_lt_weightMembers listed
      rw [weight.eq_def (.obj _)]
      simp only
      omega

end IsPart

/-! ## Values that have a text -/

theorem isWritable_arr_iff {items : List Json} :
    (arr items).isWritable = true ↔ ∀ item ∈ items, item.isWritable = true := by
  rw [isWritable]
  induction items with
  | nil => simp [areWritable]
  | cons item rest ih => simp [areWritable, ih]

theorem isWritable_obj_iff {members : List (String × Json)} :
    (obj members).isWritable = true ↔ ∀ entry ∈ members, entry.2.isWritable = true := by
  rw [isWritable]
  induction members with
  | nil => simp [areMembersWritable]
  | cons entry rest ih => simp [areMembersWritable, ih]

/-- What has a text has parts that have one. -/
theorem IsPart.isWritable {part whole : Json} (below : IsPart part whole)
    (writable : whole.isWritable = true) : part.isWritable = true := by
  induction below with
  | self => exact writable
  | item listed _ ih => exact ih (isWritable_arr_iff.1 writable _ listed)
  | member listed _ ih => exact ih (isWritable_obj_iff.1 writable _ listed)

/-! ## Objects at any depth -/

mutual
/-- Whether every object at any depth of a value passes a test. -/
def everyObject (p : List (String × Json) → Bool) : Json → Bool
  | .arr items => everyObjectOfItems p items
  | .obj members => p members && everyObjectOfMembers p members
  | .null => true
  | .bool _ => true
  | .int _ => true
  | .float _ => true
  | .str _ => true

/-- Whether every object at any depth of items passes a test. -/
def everyObjectOfItems (p : List (String × Json) → Bool) : List Json → Bool
  | [] => true
  | item :: rest => item.everyObject p && everyObjectOfItems p rest

/-- Whether every object at any depth of the values of members passes a test. -/
def everyObjectOfMembers (p : List (String × Json) → Bool) : List (String × Json) → Bool
  | [] => true
  | (_, v) :: rest => v.everyObject p && everyObjectOfMembers p rest
end

section EveryObject

variable {p : List (String × Json) → Bool}

theorem everyObjectOfItems_iff {items : List Json} :
    everyObjectOfItems p items = true ↔ ∀ item ∈ items, item.everyObject p = true := by
  induction items with
  | nil => simp [everyObjectOfItems]
  | cons item rest ih => simp [everyObjectOfItems, ih]

theorem everyObjectOfMembers_iff {members : List (String × Json)} :
    everyObjectOfMembers p members = true ↔
      ∀ entry ∈ members, entry.2.everyObject p = true := by
  induction members with
  | nil => simp [everyObjectOfMembers]
  | cons entry rest ih =>
      obtain ⟨name, v⟩ := entry
      simp [everyObjectOfMembers, ih]

/-- A test that every object passes is passed by all parts that are objects. -/
theorem everyObject_of_isPart {v part : Json} (h : v.everyObject p = true) (below : IsPart part v) :
    part.everyObject p = true := by
  induction below with
  | self => exact h
  | item listed _ ih =>
      rw [everyObject, everyObjectOfItems_iff] at h
      exact ih (h _ listed)
  | member listed _ ih =>
      rw [everyObject, Bool.and_eq_true, everyObjectOfMembers_iff] at h
      exact ih (h.2 _ listed)

theorem everyObject_iff {v : Json} :
    v.everyObject p = true ↔ ∀ members, IsPart (.obj members) v → p members = true := by
  constructor
  · intro h members below
    have passed := everyObject_of_isPart h below
    rw [everyObject, Bool.and_eq_true] at passed
    exact passed.1
  · intro h
    induction size : v.weight using Nat.strongRecOn generalizing v with
    | ind n ih =>
        cases v with
        | null | bool b | int i | float x | str s => rw [everyObject]
        | arr items =>
            rw [everyObject, everyObjectOfItems_iff]
            intro item listed
            have le := weight_le_weightItems listed
            rw [weight] at size
            exact ih item.weight (by omega)
              (fun members below => h members (.item listed below)) rfl
        | obj members =>
            rw [everyObject, Bool.and_eq_true, everyObjectOfMembers_iff]
            refine ⟨h members (.self _), ?_⟩
            intro entry listed
            have lt := weight_lt_weightMembers listed
            rw [weight] at size
            exact ih entry.2.weight (by omega)
              (fun members below => h members (.member listed below)) rfl

end EveryObject

/-- No object at any depth of a value has a member of a name. -/
def Lacks (name : String) (v : Json) : Prop :=
  ∀ members, IsPart (.obj members) v → Table.get? members name = none

namespace Lacks

variable {name : String} {v part : Json}

theorem of_isPart (h : Lacks name v) (below : IsPart part v) : Lacks name part :=
  fun members inside => h members (inside.trans below)

/-- A member of another name lacks the name if the object does, and no member has the name. -/
theorem of_member {members : List (String × Json)} (h : Lacks name (.obj members))
    {entry : String × Json} (listed : entry ∈ members) : entry.1 ≠ name ∧ Lacks name entry.2 := by
  refine ⟨?_, h.of_isPart (.of_member listed)⟩
  rintro rfl
  have absent := h members (.self _)
  have present := (Table.has_iff_mem_keys members entry.1).2 (List.mem_map_of_mem listed)
  rw [Table.has, absent] at present
  cases present

end Lacks

instance (name : String) (v : Json) : Decidable (Lacks name v) :=
  decidable_of_iff (v.everyObject fun members => !Table.has members name) <|
    everyObject_iff.trans <| forall₂_congr fun members _ => by
      simp [Table.has]

end RouteContract.Json
