import RouteContract.OpenApi.Rebase
import RouteContract.Proofs.Data.Table
import RouteContract.Proofs.Json.Pointer

/-!
# What moving a schema changes

Rebasing a value keeps its places (`follow?_rebase`) and changes nothing in it but the texts of
local references (`blankReferences_relocate`). Below the key where a schema begins, a local
reference is written against that place, so that it leads from the top of the document to the copy
of what it led to from the top of the schema (`resolve?_relocate`). What stands in a copy was moved
there, and different schemas have different copies (`relocate_injective`).
-/

set_option autoImplicit false

namespace RouteContract.OpenApi

open RouteContract Json Pointer

/-! ## Local references -/

/-- Whether a member is a reference into the schema that it stands in. -/
def isLocalReference (key : String) : Json → Bool
  | .str text => key == "$ref" && text.toList.head? == some '#'
  | _ => false

theorem isLocalReference_str_iff {key text : String} :
    isLocalReference key (.str text) = true ↔
      key = "$ref" ∧ ∃ pointer, text.toList = '#' :: pointer := by
  rw [isLocalReference, Bool.and_eq_true, beq_iff_eq, beq_iff_eq, List.head?_eq_some_iff]

theorem rebasedReference?_of_not_local (root : SchemaRoot) {key : String} {value : Json}
    (other : isLocalReference key value = false) : rebasedReference? root key value = none := by
  rw [rebasedReference?.eq_def]
  split
  · next text =>
      split
      · next pointer chars =>
          split
          · next same =>
              rw [isLocalReference_str_iff.2 ⟨same, pointer, chars⟩] at other
              cases other
          · rfl
      · rfl
  · rfl

theorem isLocalReference_of_not_text (key : String) {value : Json} (noText : ∀ s, value ≠ .str s) :
    isLocalReference key value = false := by
  cases value with
  | str text => exact absurd rfl (noText text)
  | null | bool b | int i | float x | arr items | obj members => rfl

/-! ## Places -/

/-- The root for what segments lead to, from a path. -/
def SchemaRoot.along (root : SchemaRoot) (path : List String) : List String → SchemaRoot
  | [] => root
  | segment :: rest => (root.enter path segment).along (path ++ [segment]) rest

@[simp] theorem SchemaRoot.enter_some (r : List String) (path : List String) (key : String) :
    SchemaRoot.enter (some r) path key = some r := rfl

theorem SchemaRoot.along_some (r : List String) (path segments : List String) :
    SchemaRoot.along (some r) path segments = some r := by
  induction segments generalizing path with
  | nil => rfl
  | cons segment rest ih => exact ih (path ++ [segment])

/-- No schema begins on a way without the key for one. -/
theorem SchemaRoot.along_none {segments : List String} (plain : "schema" ∉ segments)
    (path : List String) : SchemaRoot.along none path segments = none := by
  induction segments generalizing path with
  | nil => rfl
  | cons segment rest ih =>
      rw [List.mem_cons, not_or] at plain
      rw [SchemaRoot.along, SchemaRoot.enter, if_neg (Ne.symm plain.1)]
      exact ih plain.2 _

theorem toString_ne_schema (i : Nat) : toString i ≠ "schema" := by
  intro same
  have read := position?_toString i
  rw [same, show position? "schema" = none by decide] at read
  cases read

theorem enter_toString (root : SchemaRoot) (path : List String) (i : Nat) :
    root.enter path (toString i) = root := by
  cases root with
  | some r => rfl
  | none => rw [SchemaRoot.enter, if_neg (toString_ne_schema i)]

/-- A member of an object as it is moved. -/
def rebaseMember (root : SchemaRoot) (path : List String) (key : String) (value : Json) : Json :=
  match rebasedReference? root key value with
  | some text => .str text
  | none => rebase (root.enter path key) (path ++ [key]) value

theorem rebaseMember_of_not_local {root : SchemaRoot} {path : List String} {key : String}
    {value : Json} (other : isLocalReference key value = false) :
    rebaseMember root path key value = rebase (root.enter path key) (path ++ [key]) value := by
  rw [rebaseMember, rebasedReference?_of_not_local root other]

/-- Outside schemas every member is only moved. -/
theorem rebaseMember_of_no_root (path : List String) (key : String) (value : Json) :
    rebaseMember none path key value =
      rebase (SchemaRoot.enter none path key) (path ++ [key]) value := by
  have unchanged : rebasedReference? none key value = none := rfl
  rw [rebaseMember, unchanged]

theorem rebaseMembers_eq_map (root : SchemaRoot) (path : List String)
    (members : List (String × Json)) :
    rebaseMembers root path members =
      members.map fun m => (m.1, rebaseMember root path m.1 m.2) := by
  induction members with
  | nil => rw [rebaseMembers, List.map_nil]
  | cons entry rest ih =>
      obtain ⟨key, value⟩ := entry
      rw [rebaseMembers, ih]
      rfl

theorem get?_rebaseMembers (root : SchemaRoot) (path : List String)
    (members : List (String × Json)) (key : String) :
    Table.get? (rebaseMembers root path members) key =
      (Table.get? members key).map (rebaseMember root path key) := by
  rw [rebaseMembers_eq_map, Table.get?_map]

theorem getElem?_rebaseItems (root : SchemaRoot) (path : List String) (position : Nat)
    (items : List Json) (i : Nat) :
    (rebaseItems root path position items)[i]? =
      items[i]?.map (rebase root (path ++ [toString (position + i)])) := by
  induction items generalizing position i with
  | nil => rw [rebaseItems]; rfl
  | cons item rest ih =>
      rw [rebaseItems]
      cases i with
      | zero => rfl
      | succ i =>
          rw [List.getElem?_cons_succ, List.getElem?_cons_succ, ih, Nat.add_right_comm]
          rfl

theorem follow?_str {s : String} {segments : List String} {n : Json}
    (found : (Json.str s).follow? segments = some n) : n = .str s := by
  cases segments with
  | nil => exact (Option.some.inj found).symm
  | cons segment rest =>
      rw [follow?_cons] at found
      cases found

/-- **Places stay where they are.** What segments lead to is moved along with them. -/
theorem follow?_rebase {v n : Json} {segments : List String} (root : SchemaRoot)
    (path : List String) (found : v.follow? segments = some n) (noText : ∀ s, n ≠ .str s) :
    (rebase root path v).follow? segments =
      some (rebase (root.along path segments) (path ++ segments) n) := by
  induction segments generalizing v root path with
  | nil =>
      cases found
      rw [follow?_nil, List.append_nil, SchemaRoot.along]
  | cons segment rest ih =>
      rw [follow?_cons] at found ⊢
      obtain ⟨part, taken, further⟩ := Option.bind_eq_some_iff.1 found
      have noTextPart (s : String) : part ≠ .str s := by
        rintro rfl
        exact noText s (follow?_str further)
      have next := ih (root.enter path segment) (path ++ [segment]) further
      rw [List.append_assoc, List.singleton_append] at next
      cases v with
      | null | bool b | int i | float x | str s => cases taken
      | obj members =>
          rw [rebase, part?_obj, get?_rebaseMembers, ← part?_obj, taken, Option.map_some,
            Option.bind_some,
            rebaseMember_of_not_local (isLocalReference_of_not_text segment noTextPart)]
          exact next
      | arr items =>
          obtain ⟨i, read, item⟩ := Option.bind_eq_some_iff.1 taken
          rw [position?_eq_some_iff] at read
          subst read
          rw [enter_toString] at next
          rw [rebase, part?_arr, getElem?_rebaseItems, Nat.zero_add, item, Option.map_some,
            Option.bind_some, SchemaRoot.along, enter_toString]
          exact next

/-! ## Below the beginning of a schema -/

/-- A schema, or a part of one, as it stands in a document where the schema begins at a place. -/
def relocate (place : List String) (v : Json) : Json := rebase (some place) place v

/-- Inside a schema the way from its beginning does not count. -/
theorem rebase_some (place path : List String) (v : Json) :
    rebase (some place) path v = relocate place v := by
  induction size : v.weight using Nat.strongRecOn generalizing path v with
  | ind n ih =>
      have lighter (part : Json) (lt : part.weight < v.weight) (path other : List String) :
          rebase (some place) path part = rebase (some place) other part :=
        (ih part.weight (size ▸ lt) path part rfl).trans (ih _ (size ▸ lt) other part rfl).symm
      cases v with
      | null | bool b | int i | float x | str s => rw [relocate, rebase, rebase]
      | obj members =>
          rw [relocate, rebase, rebase, rebaseMembers_eq_map, rebaseMembers_eq_map]
          refine congrArg Json.obj (List.map_congr_left fun entry listed => ?_)
          have lt := Json.weight_lt_weightMembers listed
          rw [rebaseMember, rebaseMember]
          split
          · rfl
          · rw [SchemaRoot.enter_some, SchemaRoot.enter_some,
              lighter entry.2 (by rw [Json.weight]; omega) _ (place ++ [entry.1])]
      | arr items =>
          rw [relocate, rebase, rebase]
          refine congrArg Json.arr (List.ext_getElem? fun i => ?_)
          rw [getElem?_rebaseItems, getElem?_rebaseItems]
          cases found : items[i]? with
          | none => rfl
          | some item =>
              have le := Json.weight_le_weightItems (List.mem_of_getElem? found)
              rw [Option.map_some, Option.map_some, lighter item (by rw [Json.weight]; omega)]

/-- A member of a schema as it stands in a document. -/
def relocateMember (place : List String) (key : String) (value : Json) : Json :=
  rebaseMember (some place) place key value

theorem relocate_arr (place : List String) (items : List Json) :
    relocate place (.arr items) = .arr (items.map (relocate place)) := by
  rw [relocate, rebase]
  refine congrArg Json.arr (List.ext_getElem? fun i => ?_)
  rw [getElem?_rebaseItems, List.getElem?_map]
  exact congrArg (items[i]?.map ·) (funext fun item => rebase_some place _ item)

theorem relocate_obj (place : List String) (members : List (String × Json)) :
    relocate place (.obj members) =
      .obj (members.map fun m => (m.1, relocateMember place m.1 m.2)) := by
  rw [relocate, rebase, rebaseMembers_eq_map]
  rfl

theorem part?_relocate_obj (place : List String) (members : List (String × Json)) (key : String) :
    (relocate place (.obj members)).part? key =
      (Table.get? members key).map (relocateMember place key) := by
  rw [relocate_obj, part?_obj, Table.get?_map]

theorem relocate_ne_str {place : List String} {v : Json} (noText : ∀ s, v ≠ .str s) (s : String) :
    relocate place v ≠ .str s := by
  cases v with
  | str text => exact absurd rfl (noText text)
  | null | bool b | int i | float x | arr items | obj members =>
      rw [relocate, rebase]
      exact nofun

theorem SchemaRoot.along_append (root : SchemaRoot) (path first second : List String) :
    root.along path (first ++ second) = (root.along path first).along (path ++ first) second := by
  induction first generalizing root path with
  | nil => rw [List.nil_append, List.append_nil, SchemaRoot.along]
  | cons segment rest ih =>
      rw [List.cons_append, SchemaRoot.along, ih, SchemaRoot.along, List.append_assoc]
      rfl

/-- Where the outermost key for a schema leads, the schema begins. -/
theorem follow?_rebase_schema {v schema : Json} {front : List String} (path : List String)
    (plain : "schema" ∉ front) (found : v.follow? (front ++ ["schema"]) = some schema)
    (noText : ∀ s, schema ≠ .str s) :
    (rebase none path v).follow? (front ++ ["schema"]) =
      some (relocate (path ++ (front ++ ["schema"])) schema) := by
  have begins : SchemaRoot.along none path (front ++ ["schema"]) =
      some (path ++ (front ++ ["schema"])) := by
    rw [SchemaRoot.along_append, SchemaRoot.along_none plain, SchemaRoot.along, SchemaRoot.along,
      SchemaRoot.enter, if_pos rfl, List.append_assoc]
  rw [follow?_rebase none path found noText, begins, rebase_some]

/-- Parts of a schema are moved with it. -/
theorem follow?_relocate {v n : Json} {segments : List String} (place : List String)
    (found : v.follow? segments = some n) (noText : ∀ s, n ≠ .str s) :
    (relocate place v).follow? segments = some (relocate place n) := by
  rw [relocate, follow?_rebase _ _ found noText, SchemaRoot.along_some, rebase_some]

/-! ## References -/

theorem relocateMember_of_not_local (place : List String) {key : String} {value : Json}
    (other : isLocalReference key value = false) :
    relocateMember place key value = relocate place value := by
  rw [relocateMember, rebaseMember_of_not_local other, SchemaRoot.enter_some, rebase_some]

/-- A local reference is written behind the place of its schema. -/
theorem relocateMember_local (place : List String) {text : String} {pointer : List Char}
    (isLocal : text.toList = '#' :: pointer) :
    relocateMember place "$ref" (.str text) =
      .str (fragment place ++ String.ofList pointer) := by
  simp only [relocateMember, rebaseMember, rebasedReference?, isLocal, if_true]

/-- A reference of a schema, as it stands where the schema was moved to. -/
theorem part?_relocate_reference (place : List String) {members : List (String × Json)}
    {text : String} {pointer : List Char} (found : Table.get? members "$ref" = some (.str text))
    (isLocal : text.toList = '#' :: pointer) :
    (relocate place (.obj members)).part? "$ref" =
      some (.str (fragment place ++ String.ofList pointer)) := by
  rw [part?_relocate_obj, found, Option.map_some, relocateMember_local place isLocal]

/-- **References stay live.** Where a schema stands in a document, a reference in it leads from the
top of the document to the copy of what it led to from the top of the schema. -/
theorem resolve?_relocate {document schema n : Json} {place : List String} {pointer : List Char}
    {target : List String} (stands : document.follow? place = some (relocate place schema))
    (read : readPointer? pointer = some target) (found : schema.follow? target = some n)
    (noText : ∀ s, n ≠ .str s) :
    document.resolve? (fragment place ++ String.ofList pointer) = some (relocate place n) := by
  rw [resolve?_fragment_append _ _ read, follow?_append, stands, Option.bind_some,
    follow?_relocate place found noText]

theorem isLocalReference_relocate (place : List String) (key : String) (value : Json) :
    isLocalReference key (relocate place value) = isLocalReference key value := by
  cases value with
  | null | bool b | int i | float x | str s => rw [relocate, rebase]
  | arr items | obj members =>
      rw [relocate, rebase]
      rfl

/-- What was a local reference is one, and nothing else is. -/
theorem isLocalReference_relocateMember (place : List String) (key : String) (value : Json) :
    isLocalReference key (relocateMember place key value) = isLocalReference key value := by
  cases isLocal : isLocalReference key value with
  | false => rw [relocateMember_of_not_local place isLocal, isLocalReference_relocate, isLocal]
  | true =>
      cases value with
      | null | bool b | int i | float x | arr items | obj members => cases isLocal
      | str text =>
          obtain ⟨rfl, pointer, chars⟩ := isLocalReference_str_iff.1 isLocal
          rw [relocateMember_local place chars, isLocalReference_str_iff]
          refine ⟨rfl, renderChars place ++ pointer, ?_⟩
          rw [String.toList_append, toList_fragment, String.toList_ofList, List.cons_append]

/-! ## What does not change -/

mutual
/-- A value with a bare hash sign in place of every local reference. -/
def blankReferences : Json → Json
  | .arr items => .arr (blankItems items)
  | .obj members => .obj (blankMembers members)
  | .null => .null
  | .bool b => .bool b
  | .int i => .int i
  | .float x => .float x
  | .str s => .str s

/-- The items of an array, with a bare hash sign in place of every local reference. -/
def blankItems : List Json → List Json
  | [] => []
  | item :: rest => blankReferences item :: blankItems rest

/-- The members of an object, with a bare hash sign in place of every local reference. -/
def blankMembers : List (String × Json) → List (String × Json)
  | [] => []
  | (key, value) :: rest =>
      (key, if isLocalReference key value then .str "#" else blankReferences value) ::
        blankMembers rest
end

theorem blankItems_eq_map (items : List Json) : blankItems items = items.map blankReferences := by
  induction items with
  | nil => rw [blankItems, List.map_nil]
  | cons item rest ih => rw [blankItems, ih, List.map_cons]

/-- A member of an object, with a bare hash sign if it is a local reference. -/
def blankMember (key : String) (value : Json) : Json :=
  if isLocalReference key value then .str "#" else blankReferences value

theorem blankMembers_eq_map (members : List (String × Json)) :
    blankMembers members = members.map fun m => (m.1, blankMember m.1 m.2) := by
  induction members with
  | nil => rw [blankMembers, List.map_nil]
  | cons entry rest ih =>
      obtain ⟨key, value⟩ := entry
      rw [blankMembers, ih]
      rfl

theorem blankMember_relocateMember (place : List String) {key : String} {value : Json}
    (below : blankReferences (relocate place value) = blankReferences value) :
    blankMember key (relocateMember place key value) = blankMember key value := by
  rw [blankMember, blankMember, isLocalReference_relocateMember]
  cases isLocal : isLocalReference key value with
  | true => rfl
  | false => rw [relocateMember_of_not_local place isLocal, below]

/-- **Nothing else changes**: a moved schema differs in the texts of local references only. -/
theorem blankReferences_relocate (place : List String) (v : Json) :
    blankReferences (relocate place v) = blankReferences v := by
  induction size : v.weight using Nat.strongRecOn generalizing v with
  | ind n ih =>
      cases v with
      | null | bool b | int i | float x | str s => rw [relocate, rebase]
      | obj members =>
          rw [relocate_obj, blankReferences, blankReferences, blankMembers_eq_map,
            blankMembers_eq_map, List.map_map]
          refine congrArg Json.obj (List.map_congr_left fun entry listed => ?_)
          have lt := Json.weight_lt_weightMembers listed
          rw [Json.weight] at size
          have below := ih entry.2.weight (by omega) entry.2 rfl
          rw [Function.comp_apply, blankMember_relocateMember place below]
      | arr items =>
          rw [relocate_arr, blankReferences, blankReferences, blankItems_eq_map,
            blankItems_eq_map, List.map_map]
          refine congrArg Json.arr (List.map_congr_left fun item listed => ?_)
          have le := Json.weight_le_weightItems listed
          rw [Json.weight] at size
          exact ih item.weight (by omega) item rfl

/-! ## What a moved schema was moved from -/

/-- What stands in a moved schema was moved there. -/
theorem exists_follow?_of_relocate {place : List String} {v w : Json} {segments : List String}
    (found : (relocate place v).follow? segments = some w) (noText : ∀ s, w ≠ .str s) :
    ∃ n, v.follow? segments = some n ∧ w = relocate place n := by
  induction segments generalizing v with
  | nil =>
      cases found
      exact ⟨v, rfl, rfl⟩
  | cons segment rest ih =>
      rw [follow?_cons] at found
      obtain ⟨moved, taken, further⟩ := Option.bind_eq_some_iff.1 found
      cases v with
      | null | bool b | int i | float x | str s =>
          rw [relocate, rebase] at taken
          cases taken
      | obj members =>
          rw [part?_relocate_obj] at taken
          obtain ⟨value, stated, rfl⟩ := Option.map_eq_some_iff.1 taken
          have noTextPart (s : String) : relocateMember place segment value ≠ .str s := by
            intro same
            rw [same] at further
            exact noText s (follow?_str further)
          have other : isLocalReference segment value = false := by
            rw [← isLocalReference_relocateMember place]
            exact isLocalReference_of_not_text segment noTextPart
          rw [relocateMember_of_not_local place other] at further
          obtain ⟨n, below, same⟩ := ih further
          exact ⟨n, by rw [follow?_cons, part?_obj, stated, Option.bind_some, below], same⟩
      | arr items =>
          rw [relocate_arr] at taken
          obtain ⟨i, read, copy⟩ := Option.bind_eq_some_iff.1 taken
          rw [position?_eq_some_iff] at read
          subst read
          rw [List.getElem?_map] at copy
          obtain ⟨item, stated, rfl⟩ := Option.map_eq_some_iff.1 copy
          obtain ⟨n, below, same⟩ := ih further
          exact ⟨n, by rw [follow?_cons, part?_arr, stated, Option.bind_some, below], same⟩

theorem relocateMember_cancel {place : List String} {key : String} {v w : Json}
    (below : relocate place v = relocate place w → v = w)
    (same : relocateMember place key v = relocateMember place key w) : v = w := by
  have kind := isLocalReference_relocateMember place key v
  rw [same, isLocalReference_relocateMember] at kind
  cases isLocal : isLocalReference key v with
  | false =>
      rw [isLocal] at kind
      rw [relocateMember_of_not_local place isLocal, relocateMember_of_not_local place kind] at same
      exact below same
  | true =>
      rw [isLocal] at kind
      cases v with
      | null | bool b | int i | float x | arr items | obj members => cases isLocal
      | str first =>
          cases w with
          | null | bool b | int i | float x | arr items | obj members => cases kind
          | str second =>
              obtain ⟨rfl, pointer, chars⟩ := isLocalReference_str_iff.1 isLocal
              obtain ⟨-, pointer', chars'⟩ := isLocalReference_str_iff.1 kind
              rw [relocateMember_local place chars, relocateMember_local place chars'] at same
              have behind := congrArg String.toList (Json.str.inj same)
              rw [String.toList_append, String.toList_append, String.toList_ofList,
                String.toList_ofList] at behind
              obtain rfl := List.append_cancel_left behind
              rw [String.toList_inj.1 (chars.trans chars'.symm)]

theorem map_cancel {α β : Type} {f : α → β} {xs ys : List α}
    (cancel : ∀ x ∈ xs, ∀ y, f x = f y → x = y) (same : xs.map f = ys.map f) : xs = ys := by
  induction xs generalizing ys with
  | nil => exact (List.map_eq_nil_iff.1 same.symm).symm
  | cons x rest ih =>
      obtain ⟨y, others, rfl, first, more⟩ := List.map_eq_cons_iff.1 same.symm
      rw [cancel x (List.mem_cons_self ..) y first.symm,
        ih (fun x listed => cancel x (List.mem_cons_of_mem _ listed)) more.symm]

/-- **Different schemas stay different.** -/
theorem relocate_injective (place : List String) : Function.Injective (relocate place) := by
  intro v w same
  induction size : v.weight using Nat.strongRecOn generalizing v w with
  | ind n ih =>
      cases v with
      | null | bool b | int i | float x | str s =>
          cases w <;> simp_all only [relocate, rebase, reduceCtorEq]
      | obj members =>
          cases w with
          | null | bool b | int i | float x | str s | arr items =>
              rw [relocate, relocate, rebase, rebase] at same
              cases same
          | obj others =>
              rw [relocate_obj, relocate_obj] at same
              refine congrArg Json.obj (map_cancel ?_ (Json.obj.inj same))
              rintro ⟨key, v⟩ listed ⟨key', w⟩ copied
              obtain ⟨rfl, copied⟩ := Prod.mk.inj copied
              have lt := Json.weight_lt_weightMembers listed
              rw [Json.weight] at size
              have below (same : relocate place v = relocate place w) : v = w :=
                ih v.weight (by simp only at lt; omega) same rfl
              rw [relocateMember_cancel below copied]
      | arr items =>
          cases w with
          | null | bool b | int i | float x | str s | obj members =>
              rw [relocate, relocate, rebase, rebase] at same
              cases same
          | arr others =>
              rw [relocate_arr, relocate_arr] at same
              refine congrArg Json.arr (map_cancel ?_ (Json.arr.inj same))
              intro v listed w copied
              have le := Json.weight_le_weightItems listed
              rw [Json.weight] at size
              exact ih v.weight (by omega) copied rfl

end RouteContract.OpenApi
