import Mathlib
import RouteContract.Proofs.OpenApi.Rebase
import RouteContract.Proofs.Shape.BackReference
import RouteContract.Proofs.Shape.Intersection

/-!
# Compiling in place

A schema can be compiled at the top and then be moved into a document, or it can be compiled at the
place where it stands there. Both make the same schema (`rebase_compiled`): the paths at which
object types were entered show in the references only, and moving a schema writes the place in
front of each of them. That is so for every step of compilation, whatever object types are being
expanded around it (`expands_moved`), as long as no reference was written by hand
(`Unwritten`).
-/

set_option autoImplicit false

namespace RouteContract.OpenApi

open RouteContract Json Pointer Shape

variable {place : List String}

/-! ## Moving parts of a schema -/

/-- The members of a schema as they stand in a document. -/
def relocateTable (place : List String) (members : Table Json) : Table Json :=
  members.map fun m => (m.1, relocateMember place m.1 m.2)

theorem relocate_eq_obj (place : List String) (members : Table Json) :
    relocate place (.obj members) = .obj (relocateTable place members) :=
  relocate_obj place members

@[simp] theorem relocate_str (place : List String) (s : String) :
    relocate place (.str s) = .str s := by
  rw [relocate, rebase]

@[simp] theorem relocate_bool (place : List String) (b : Bool) :
    relocate place (.bool b) = .bool b := by
  rw [relocate, rebase]

theorem relocate_of_isAtom {v : Json} (atom : isAtom v = true) : relocate place v = v := by
  cases v with
  | arr items => cases atom
  | obj members => cases atom
  | null | bool b | int i | float x | str s => rw [relocate, rebase]

theorem relocateMember_of_ne {key : String} (other : key ≠ "$ref") (value : Json) :
    relocateMember place key value = relocate place value := by
  refine relocateMember_of_not_local place ?_
  cases value with
  | str text => simp [isLocalReference, other]
  | null | bool b | int i | float x | arr items | obj members => rfl

theorem relocateMember_obj (key : String) (members : Table Json) :
    relocateMember place key (.obj members) = relocate place (.obj members) :=
  relocateMember_of_not_local place rfl

theorem members?_relocate (v : Json) :
    (relocate place v).members? = v.members?.map (relocateTable place) := by
  cases v with
  | obj members => rw [relocate_eq_obj]; rfl
  | null | bool b | int i | float x | str s | arr items => rw [relocate, rebase]; rfl

theorem items?_relocate (v : Json) :
    (relocate place v).items? = v.items?.map (List.map (relocate place)) := by
  cases v with
  | arr items => rw [relocate_arr]; rfl
  | null | bool b | int i | float x | str s | obj members => rw [relocate, rebase]; rfl

/-- **A value without references stays as it is.** -/
theorem relocate_of_lacks {v : Json} (lacks : Lacks "$ref" v) : relocate place v = v := by
  induction size : v.weight using Nat.strongRecOn generalizing v with
  | ind n ih =>
      cases v with
      | null | bool b | int i | float x | str s => rw [relocate, rebase]
      | obj members =>
          rw [relocate_obj]
          refine congrArg Json.obj
            ((List.map_congr_left fun entry listed => ?_).trans (List.map_id members))
          obtain ⟨other, below⟩ := lacks.of_member listed
          have lt := Json.weight_lt_weightMembers listed
          rw [Json.weight] at size
          rw [relocateMember_of_ne other, ih entry.2.weight (by omega) below rfl, id]
      | arr items =>
          rw [relocate_arr]
          refine congrArg Json.arr
            ((List.map_congr_left fun item listed => ?_).trans (List.map_id items))
          have le := Json.weight_le_weightItems listed
          rw [Json.weight] at size
          rw [ih item.weight (by omega) (lacks.of_isPart (.of_item listed)) rfl, id]

/-! ## Moving tables -/

section Tables

variable {key : String}

theorem get?_relocateTable (other : key ≠ "$ref") (members : Table Json) :
    Table.get? (relocateTable place members) key =
      (Table.get? members key).map (relocate place) := by
  rw [relocateTable, Table.get?_map]
  exact congrArg (Option.map · _) (funext (relocateMember_of_ne other))

theorem relocateTable_put (other : key ≠ "$ref") (members : Table Json) (value : Json) :
    relocateTable place (Table.put members key value) =
      Table.put (relocateTable place members) key (relocate place value) := by
  rw [relocateTable, Table.map_put, relocateMember_of_ne other]
  rfl

theorem relocateTable_putAll (first second : Table Json) :
    relocateTable place (Table.putAll first second) =
      Table.putAll (relocateTable place first) (relocateTable place second) :=
  Table.map_putAll _ _ _

theorem isEmpty_relocateTable (members : Table Json) :
    (relocateTable place members).isEmpty = members.isEmpty := List.isEmpty_map

theorem membersUnder_relocateTable (other : key ≠ "$ref") (members : Table Json) :
    membersUnder (relocateTable place members) key =
      relocateTable place (membersUnder members key) := by
  rw [membersUnder, membersUnder, get?_relocateTable other]
  cases Table.get? members key with
  | none => rfl
  | some v =>
      simp only [Option.map_some, Option.bind_some, members?_relocate]
      cases v.members? <;> rfl

theorem itemsUnder_relocateTable (other : key ≠ "$ref") (members : Table Json) :
    itemsUnder (relocateTable place members) key =
      (itemsUnder members key).map (relocate place) := by
  rw [itemsUnder, itemsUnder, get?_relocateTable other]
  cases Table.get? members key with
  | none => rfl
  | some v =>
      simp only [Option.map_some, Option.bind_some, items?_relocate]
      cases v.items? <;> rfl

end Tables

/-! ## Moving what types expand to -/

theorem relocate_annotated {notes : Table Json} (lacks : Lacks "$ref" (.obj notes))
    (schema : Json) :
    relocate place (annotated notes schema) = annotated notes (relocate place schema) := by
  have kept : relocateTable place notes = notes := by
    have same : relocate place (.obj notes) = .obj notes := relocate_of_lacks lacks
    rw [relocate_eq_obj] at same
    exact Json.obj.inj same
  rw [annotated, annotated, relocate_eq_obj, relocateTable_putAll, kept, members?_relocate]
  cases schema.members? <;> rfl

theorem relocate_fragment {p : Property} (lacks : Lacks "$ref" (.obj p.annotations))
    (schema : Json) : relocate place (p.fragment schema) = p.fragment (relocate place schema) := by
  rw [Property.fragment, Property.fragment]
  split
  · exact relocate_of_lacks lacks
  · exact relocate_annotated lacks schema

theorem relocate_texts (names : List String) :
    relocate place (.arr (names.map .str)) = .arr (names.map .str) := by
  rw [relocate_arr, List.map_map]
  exact congrArg Json.arr (List.map_congr_left fun name _ => relocate_str place name)

theorem relocate_objectSchema (additional : Json) (required : List String)
    (properties : Table Json) :
    relocate place (objectSchema additional required properties) =
      objectSchema (relocate place additional) required (relocateTable place properties) := by
  rw [objectSchema, objectSchema, relocate_eq_obj, relocateTable, isEmpty_relocateTable]
  cases required.isEmpty <;> cases properties.isEmpty <;>
    simp [relocateMember_of_ne, relocate_texts, relocate_eq_obj]

/-- The schemas of properties are moved one by one. -/
theorem relocateTable_propertyEntries {properties : List Property}
    (lacks : ∀ p ∈ properties, Lacks "$ref" (.obj p.annotations)) (schemas : List Json) :
    relocateTable place (propertyEntries properties schemas) =
      propertyEntries properties (schemas.map (relocate place)) := by
  rw [relocateTable, propertyEntries, propertyEntries, List.map_zipWith, List.zipWith_map_right]
  apply List.ext_getElem?
  intro i
  rw [List.getElem?_zipWith, List.getElem?_zipWith]
  cases found : (participating properties)[i]? with
  | none => rfl
  | some p =>
      cases schemas[i]? with
      | none => rfl
      | some schema =>
          have declared := List.mem_of_mem_filter (List.mem_of_getElem? found)
          obtain ⟨members, fragment⟩ := p.fragment_eq_obj schema
          simp only [fragment, relocateMember_obj]
          rw [← fragment, relocate_fragment (lacks p declared)]

theorem relocate_enumerationSchema {values : List Json}
    (kept : ∀ v ∈ values, relocate place v = v) :
    relocate place (enumerationSchema values) = enumerationSchema values := by
  have same : relocate place (.arr values) = .arr values := by
    rw [relocate_arr, List.map_congr_left kept, List.map_id']
  cases values with
  | nil => rw [enumerationSchema, relocate_eq_obj]; rfl
  | cons first more =>
      rw [enumerationSchema, relocate_eq_obj]
      simp [relocateTable, relocateMember_of_ne, same]

theorem relocate_booleanBranch (values : List Json) :
    relocate place (booleanBranch values) = booleanBranch values := by
  rw [booleanBranch, relocate_eq_obj, relocateTable]
  split <;> [skip; split] <;> simp [relocateMember_of_ne, relocate_arr]

theorem map_relocate_folded (g : Graph) (members : List TypeId) :
    (g.folded members).map (relocate place) = g.folded members := by
  rw [Graph.folded]
  split
  · rfl
  · rw [List.map_singleton, relocate_booleanBranch]

/-! ## Moving intersections -/

/-- What a schema requires is a list of names. -/
def RequiresNames (schema : Table Json) : Prop :=
  ∀ x ∈ itemsUnder schema "required", ∃ name, x = .str name

theorem RequiresNames.map_relocate {schema : Table Json} (h : RequiresNames schema) :
    (itemsUnder schema "required").map (relocate place) = itemsUnder schema "required" := by
  refine (List.map_congr_left fun x listed => ?_).trans (List.map_id _)
  obtain ⟨name, rfl⟩ := h x listed
  rw [relocate_str, id]

theorem mem_of_mem_mergeNames {names more : List Json} {x : Json} (h : x ∈ mergeNames names more) :
    x ∈ names ∨ x ∈ more := by
  induction more generalizing names with
  | nil => exact .inl h
  | cons name rest ih =>
      rcases ih h with earlier | later
      · dsimp only at earlier
        split at earlier
        · exact .inl earlier
        · rcases List.mem_append.1 earlier with earlier | new
          · exact .inl earlier
          · exact .inr (List.mem_singleton.1 new ▸ List.mem_cons_self ..)
      · exact .inr (List.mem_cons_of_mem _ later)

theorem relocateTable_putAdditional (done members : Table Json) :
    relocateTable place (putAdditional done members) =
      putAdditional (relocateTable place done) (relocateTable place members) := by
  have other : "additionalProperties" ≠ "$ref" := by decide
  rw [putAdditional, putAdditional, get?_relocateTable other]
  cases Table.get? members "additionalProperties" with
  | none => rfl
  | some additional =>
      rw [Option.map_some]
      cases additional with
      | null => rw [relocate, rebase]
      | bool b => rw [relocate_bool]; cases b <;> simp [relocateTable_put other]
      | int i | float x | str s =>
          rw [relocate, rebase]
          simp [relocateTable_put other, relocate, rebase]
      | arr items => rw [relocate_arr]; simp [relocateTable_put other, relocate_arr]
      | obj sub => rw [relocate_eq_obj]; simp [relocateTable_put other, relocate_eq_obj]

/-- The names that two schemas require together. -/
theorem RequiresNames.merged {done members : Table Json} (hd : RequiresNames done)
    (hm : RequiresNames members) {x : Json}
    (listed : x ∈ mergeNames (itemsUnder done "required") (itemsUnder members "required")) :
    ∃ name, x = .str name := by
  rcases mem_of_mem_mergeNames listed with first | second
  · exact hd x first
  · exact hm x second

theorem RequiresNames.intersectWith {done : Table Json} {schema : Json} (hd : RequiresNames done)
    (hs : RequiresNames (schema.members?.getD [])) : RequiresNames (intersectWith done schema) := by
  have required (x : Json) := hd.merged hs (x := x)
  rw [RequiresNames, intersectWith_eq, itemsUnder]
  dsimp only
  generalize mergeNames _ _ = names at required ⊢
  generalize Table.putAll _ _ = properties
  intro x listed
  cases named : names.isEmpty with
  | true =>
      apply hd x
      cases unnamed : properties.isEmpty <;>
        simpa [named, unnamed, itemsUnder, Table.get?_put, get?_putAdditional] using listed
  | false =>
      apply required
      cases unnamed : properties.isEmpty <;>
        simpa [named, unnamed, Table.get?_put, Json.items?] using listed

/-- **An intersection of moved schemas is the moved intersection.** -/
theorem relocate_intersectWith {done : Table Json} {schema : Json} (hd : RequiresNames done)
    (hs : RequiresNames (schema.members?.getD [])) :
    relocateTable place (intersectWith done schema) =
      intersectWith (relocateTable place done) (relocate place schema) := by
  have members : (relocate place schema).members?.getD [] =
      relocateTable place (schema.members?.getD []) := by
    rw [members?_relocate]
    cases schema.members? <;> rfl
  have required : "required" ≠ "$ref" := by decide
  have properties : "properties" ≠ "$ref" := by decide
  have names : ∀ x ∈ mergeNames (itemsUnder done "required")
      (itemsUnder (schema.members?.getD []) "required"), relocate place x = x := by
    intro x listed
    obtain ⟨name, rfl⟩ := hd.merged hs listed
    exact relocate_str place name
  rw [intersectWith_eq, intersectWith_eq]
  dsimp only
  rw [members, itemsUnder_relocateTable required, itemsUnder_relocateTable required,
    hd.map_relocate, hs.map_relocate, membersUnder_relocateTable properties,
    membersUnder_relocateTable properties, ← relocateTable_putAll, isEmpty_relocateTable,
    ← relocateTable_putAdditional]
  generalize mergeNames _ _ = merged at names ⊢
  have kept : relocate place (.arr merged) = .arr merged := by
    rw [relocate_arr, List.map_congr_left names, List.map_id']
  cases merged.isEmpty <;> cases List.isEmpty _ <;>
    simp [relocateTable_put required, relocateTable_put properties, kept, relocate_eq_obj]

theorem relocateTable_foldl_intersectWith {schemas : List Json} {done : Table Json}
    (hd : RequiresNames done) (hs : ∀ s ∈ schemas, RequiresNames (s.members?.getD [])) :
    relocateTable place (schemas.foldl intersectWith done) =
      (schemas.map (relocate place)).foldl intersectWith (relocateTable place done) := by
  induction schemas generalizing done with
  | nil => rfl
  | cons s rest ih =>
      have first := hs s (List.mem_cons_self ..)
      rw [List.foldl_cons, List.map_cons, List.foldl_cons, ← relocate_intersectWith hd first]
      exact ih (hd.intersectWith first) fun other listed =>
        hs other (List.mem_cons_of_mem _ listed)

theorem requiresNames_foldl_intersectWith {schemas : List Json} {done : Table Json}
    (hd : RequiresNames done) (hs : ∀ s ∈ schemas, RequiresNames (s.members?.getD [])) :
    RequiresNames (schemas.foldl intersectWith done) := by
  induction schemas generalizing done with
  | nil => exact hd
  | cons s rest ih =>
      exact ih (hd.intersectWith (hs s (List.mem_cons_self ..))) fun other listed =>
        hs other (List.mem_cons_of_mem _ listed)

theorem requiresNames_of_absent {members : Table Json}
    (absent : Table.get? members "required" = none) : RequiresNames members := by
  intro x listed
  rw [itemsUnder, absent] at listed
  cases listed

theorem requiresNames_closedObject : RequiresNames closedObject := requiresNames_of_absent rfl

theorem requiresNames_objectSchema (additional : Json) (required : List String)
    (properties : Table Json) :
    RequiresNames ((objectSchema additional required properties).members?.getD []) := by
  intro x listed
  cases required with
  | nil => cases properties <;> cases listed
  | cons name more =>
      have named : x ∈ (name :: more).map Json.str := by
        cases properties <;> exact listed
      obtain ⟨name, -, rfl⟩ := List.mem_map.1 named
      exact ⟨name, rfl⟩

/-- **What a compiled schema requires is a list of names.** -/
theorem requiresNames_of_compile {g : Graph} {visited : Visited} {path : List String} {t : TypeId}
    {s : Json} (compiled : g.compile t path visited = .ok s) :
    RequiresNames (s.members?.getD []) := by
  refine compile_induction (motive := fun _ _ _ s => RequiresNames (s.members?.getD [])) ?_ compiled
  intro visited path t s h
  cases shape : g.shape t with
  | object properties index name =>
      simp only [Expands, shape, ExpandsObject] at h
      split at h
      · subst h
        exact requiresNames_of_absent rfl
      · obtain ⟨schemas, additional, -, -, rfl⟩ := h
        exact requiresNames_objectSchema _ _ _
  | union members =>
      simp only [Expands, shape, ExpandsUnion] at h
      split at h
      · obtain ⟨values, -, rfl⟩ := h
        exact requiresNames_of_absent rfl
      · obtain ⟨schemas, -, rfl⟩ := h
        exact requiresNames_of_absent rfl
  | intersection members =>
      simp only [Expands, shape] at h
      obtain ⟨schemas, ⟨length, each⟩, rfl⟩ := h
      refine requiresNames_foldl_intersectWith requiresNames_closedObject ?_
      intro s listed
      obtain ⟨i, found⟩ := List.mem_iff_getElem?.1 listed
      obtain ⟨u, part⟩ := getElem?_of_length_eq length.symm found
      exact (each i u s part found).2
  | enumeration values name =>
      simp only [Expands, shape] at h
      subst h
      cases values <;> exact requiresNames_of_absent rfl
  | array element =>
      simp only [Expands, shape] at h
      obtain ⟨items, -, rfl⟩ := h
      exact requiresNames_of_absent rfl
  | tuple elements =>
      simp only [Expands, shape] at h
      obtain ⟨items, -, rfl⟩ := h
      exact requiresNames_of_absent rfl
  | scalar | literal | null | any =>
      simp only [Expands, shape] at h
      subst h
      exact requiresNames_of_absent rfl
  | undescribed | bare => simp only [Expands, shape] at h

/-! ## References written by hand -/

/-- No member of a name is written by hand below a type: not in the annotations of a property, at
any depth, and not in the value of a literal or an enumeration. The values that a declaration may
name are scalars, which have no members at all. -/
structure Unwritten (g : Graph) (root : TypeId) (name : String) : Prop where
  notes : ∀ {t : TypeId} {properties : List Property} {index : Option TypeId} {own : String},
    g.Reaches root t → g.shape t = .object properties index own →
      ∀ p ∈ properties, Lacks name (.obj p.annotations)
  values : ∀ {t : TypeId} {v : Json}, g.Reaches root t → Admits g t v → Lacks name v

theorem Unwritten.part {g : Graph} {t u : TypeId} {name : String} (h : Unwritten g t name)
    (part : u ∈ g.parts t) : Unwritten g u name where
  notes reached := h.notes (.head part reached)
  values reached := h.values (.head part reached)

/-! ## Moving an expansion -/

/-- The object types that are being expanded, each entered further down. -/
def moved (place : List String) (visited : Visited) : Visited :=
  visited.map fun entry => ⟨entry.type, place ++ entry.path⟩

theorem moved_enter (visited : Visited) (t : TypeId) (path : List String) :
    moved place (enter visited t path) = enter (moved place visited) t (place ++ path) := by
  rw [moved, enter, List.map_append]
  rfl

theorem find?_moved (visited : Visited) (t : TypeId) :
    (moved place visited).find? (·.type == t) =
      (visited.find? (·.type == t)).map fun entry => ⟨entry.type, place ++ entry.path⟩ :=
  List.find?_map

theorem relocate_reference (path : List String) :
    relocate place (.obj [("$ref", .str (fragment path))]) =
      .obj [("$ref", .str (fragment (place ++ path)))] := by
  rw [relocate_eq_obj, relocateTable, List.map_singleton,
    relocateMember_local place (toList_fragment path), fragment_append]

theorem eachPart_relocated {sub sub' : List String → TypeId → Json → Prop}
    {paths : Nat → List String} {parts : List TypeId} {schemas : List Json}
    (h : EachPart sub paths parts schemas)
    (step : ∀ u ∈ parts, ∀ path s, sub path u s → sub' (place ++ path) u (relocate place s)) :
    EachPart sub' (fun i => place ++ paths i) parts (schemas.map (relocate place)) := by
  refine ⟨by rw [List.length_map, h.1], ?_⟩
  intro i u copy part found
  rw [List.getElem?_map] at found
  obtain ⟨s, compiled, rfl⟩ := Option.map_eq_some_iff.1 found
  exact step u (List.mem_of_getElem? part) _ _ (h.2 i u s part compiled)

/-- **An expansion that is moved is the expansion at that place**, when this is so for the parts:
those among the same object types, and those inside the type itself. -/
theorem expands_moved {g : Graph} {sub sub' : Visited → List String → TypeId → Json → Prop}
    {visited : Visited} {path : List String} {t : TypeId} {s : Json}
    (unwritten : Unwritten g t "$ref") (h : Expands g sub visited path t s)
    (names : ∀ path u s, sub visited path u s → RequiresNames (s.members?.getD []))
    (same : ∀ u ∈ g.parts t, ∀ path s, sub visited path u s →
      sub' (moved place visited) (place ++ path) u (relocate place s))
    (inside : g.isObject t = true → visited.any (·.type == t) = false →
      ∀ u ∈ g.parts t, ∀ path' s, sub (enter visited t path) path' u s →
        sub' (moved place (enter visited t path)) (place ++ path') u (relocate place s)) :
    Expands g sub' (moved place visited) (place ++ path) t (relocate place s) := by
  cases shape : g.shape t with
  | scalar kind =>
      simp only [Expands, shape] at h ⊢
      subst h
      simp [relocate_eq_obj, relocateTable, relocateMember_of_ne]
  | literal kind value =>
      have kept : relocate place value = value :=
        relocate_of_lacks (unwritten.values .refl (.literal shape))
      simp only [Expands, shape] at h ⊢
      subst h
      simp [relocate_eq_obj, relocateTable, relocateMember_of_ne, relocate_arr, kept]
  | array element =>
      have part : element ∈ g.parts t := by simp [Graph.parts, shape]
      simp only [Expands, shape] at h ⊢
      obtain ⟨items, compiled, rfl⟩ := h
      refine ⟨relocate place items, ?_, ?_⟩
      · rw [List.append_assoc]
        exact same element part _ _ compiled
      · simp [relocate_eq_obj, relocateTable, relocateMember_of_ne]
  | tuple elements =>
      have parts : ∀ u ∈ elements, u ∈ g.parts t := by simp [Graph.parts, shape]
      simp only [Expands, shape] at h ⊢
      obtain ⟨items, each, rfl⟩ := h
      refine ⟨items.map (relocate place), ?_, ?_⟩
      · simp only [List.append_assoc]
        exact eachPart_relocated each fun u listed => same u (parts u listed)
      · simp [relocate_eq_obj, relocateTable, relocateMember_of_ne, relocate_arr]
  | object properties index own =>
      simp only [Expands, shape, ExpandsObject, find?_moved] at h ⊢
      cases entered : visited.find? (·.type == t) with
      | some entry =>
          simp only [entered, Option.map_some] at h ⊢
          rw [h, relocate_reference]
      | none =>
          simp only [entered, Option.map_none] at h ⊢
          obtain ⟨schemas, additional, ⟨length, each⟩, indexed, rfl⟩ := h
          have isObject : g.isObject t = true := by rw [Graph.isObject, shape]
          have isNew : visited.any (·.type == t) = false := by
            simpa using List.find?_eq_none.1 entered
          have step := inside isObject isNew
          rw [moved_enter] at step
          refine ⟨schemas.map (relocate place), relocate place additional, ⟨?_, ?_⟩, ?_, ?_⟩
          · rw [List.length_map, length]
          · intro i p copy declared found typed
            rw [List.getElem?_map] at found
            obtain ⟨s, compiled, rfl⟩ := Option.map_eq_some_iff.1 found
            rw [List.append_assoc]
            exact step _ (mem_parts_of_property shape (List.mem_of_getElem? declared) typed) _ _
              (each i p s declared compiled typed)
          · cases index with
            | none =>
                rw [IndexPart] at indexed ⊢
                rw [indexed, relocate_bool]
            | some u =>
                rw [IndexPart] at indexed ⊢
                rw [List.append_assoc]
                exact step u (mem_parts_of_index shape) _ _ indexed
          · rw [relocate_objectSchema, Table.ofList, Table.ofList, relocateTable_putAll,
              relocateTable_propertyEntries (unwritten.notes .refl shape)]
            rfl
  | union members =>
      have parts : ∀ u ∈ g.branches members, u ∈ g.parts t := by
        intro u listed
        rw [Graph.parts, shape]
        exact List.mem_of_mem_filter listed
      simp only [Expands, shape, ExpandsUnion] at h ⊢
      cases collapsed : g.collapsed? members with
      | some kind =>
          simp only [collapsed] at h ⊢
          obtain ⟨values, ordered, rfl⟩ := h
          have kept : relocate place (.arr values) = .arr values := by
            rw [relocate_arr, List.map_congr_left fun v listed =>
              relocate_of_isAtom (isAtom_of_mem_orderedValues ordered listed), List.map_id']
          refine ⟨values, ordered, ?_⟩
          simp [relocate_eq_obj, relocateTable, relocateMember_of_ne, kept]
      | none =>
          simp only [collapsed] at h ⊢
          obtain ⟨schemas, each, rfl⟩ := h
          refine ⟨schemas.map (relocate place), ?_, ?_⟩
          · simp only [List.append_assoc]
            exact eachPart_relocated each fun u listed => same u (parts u listed)
          · simp [relocate_eq_obj, relocateTable, relocateMember_of_ne, relocate_arr,
              map_relocate_folded]
  | intersection members =>
      have parts : ∀ u ∈ members, u ∈ g.parts t := by simp [Graph.parts, shape]
      simp only [Expands, shape] at h ⊢
      obtain ⟨schemas, each, rfl⟩ := h
      refine ⟨schemas.map (relocate place), ?_, ?_⟩
      · exact eachPart_relocated each fun u listed => same u (parts u listed)
      · have required : ∀ s ∈ schemas, RequiresNames (s.members?.getD []) := by
          intro s listed
          obtain ⟨i, found⟩ := List.mem_iff_getElem?.1 listed
          obtain ⟨u, part⟩ := getElem?_of_length_eq each.1.symm found
          exact names _ u s (each.2 i u s part found)
        rw [relocate_eq_obj, relocateTable_foldl_intersectWith requiresNames_closedObject required]
        simp [relocateTable, closedObject, relocateMember_of_ne]
  | enumeration values own =>
      simp only [Expands, shape] at h ⊢
      rw [h]
      exact relocate_enumerationSchema fun v listed =>
        relocate_of_lacks (unwritten.values .refl (.enumeration shape listed))
  | null | any =>
      simp only [Expands, shape] at h ⊢
      subst h
      simp [relocate_eq_obj, relocateTable, relocateMember_of_ne]
  | undescribed | bare => simp only [Expands, shape] at h

/-! ## Moving a compilation -/

/-- **What is compiled among object types can be compiled in place**: whatever is being expanded
around it, with all paths moved, the schema is the moved one. The induction follows compilation, the
object types that are left to enter first and the hops between two of them second. -/
theorem compileFrom_moved {g : Graph} {hops : Nat} {visited : Visited} {path : List String}
    {t : TypeId} {s : Json} (unwritten : Unwritten g t "$ref") (le : hops ≤ g.size + 1)
    (h : g.compileFrom hops visited path t = .ok s) :
    g.compileFrom hops (moved place visited) (place ++ path) t = .ok (relocate place s) := by
  cases hops with
  | zero => simp [Graph.compileFrom] at h
  | succ hops =>
      have le' : hops ≤ g.size + 1 := Nat.le_of_succ_le le
      have length : (moved place visited).length = visited.length := List.length_map _
      refine compileFrom_succ_iff.2 (expands_moved unwritten (compileFrom_succ_iff.1 h) ?_ ?_ ?_)
      · intro path' u s' part
        rw [Graph.CompilesWithin, g.hopsInside_self] at part
        exact requiresNames_of_compile (compile_of_compileFrom le' part)
      · intro u listed path' s' part
        rw [Graph.CompilesWithin, g.hopsInside_self] at part ⊢
        exact compileFrom_moved (unwritten.part listed) le' part
      · intro isObject isNew u listed path' s' part
        have fewer := Graph.freshCount_lt path isObject isNew
        rw [Graph.CompilesWithin, g.hopsInside_enter] at part
        rw [Graph.CompilesWithin, moved_enter, g.hopsInside_enter, ← moved_enter]
        exact compileFrom_moved (unwritten.part listed) (Nat.le_refl _) part
termination_by (g.freshCount visited, hops)
decreasing_by
  · simp only [Prod.lex_def, true_and]
    omega
  · simp only [Prod.lex_def, enter]
    omega

/-- **Rebasing after compiling is compiling in place.** A schema that was compiled at the top, and
then rebased where it stands under the key for a schema at some place, is the schema that the same
type has when it is compiled there. -/
theorem rebase_compiled {g : Graph} {t : TypeId} {s : Json} (path : List String)
    (unwritten : Unwritten g t "$ref") (compiled : g.compile t [] [] = .ok s) :
    ∃ s', g.compile t (path ++ ["schema"]) [] = .ok s' ∧
      rebase none path (.obj [("schema", s)]) = .obj [("schema", s')] := by
  refine ⟨relocate (path ++ ["schema"]) s, ?_, ?_⟩
  · have inPlace : g.compileFrom (g.size + 1) [] (path ++ ["schema"] ++ []) t =
        .ok (relocate (path ++ ["schema"]) s) :=
      compileFrom_moved unwritten (Nat.le_refl _) compiled
    rwa [List.append_nil] at inPlace
  · rw [rebase, rebaseMembers_eq_map, List.map_singleton, rebaseMember_of_no_root]
    rfl

/-- A tree whose properties have the names of the key for a schema and of the key for a reference.
The second one is a table of trees that is a tree as well, and its notes mention no reference. -/
def treeGraph : Graph :=
  ⟨#[⟨.object [⟨"schema", 1, false, []⟩,
        ⟨"$ref", 2, true, [("examples", .arr [.obj [("a/b", .str "#up")]])]⟩] none "Tree", none⟩,
    ⟨.array 0, none⟩, ⟨.intersection [3, 0], none⟩, ⟨.object [] (some 0) "Table", none⟩]⟩

/-- The schema of a tree, with references that are written with a pointer. -/
def treeSchema (pointer : String) : Json :=
  .obj [("type", .str "object"), ("additionalProperties", .bool false),
    ("required", .arr [.str "schema"]),
    ("properties", .obj [
      ("schema", .obj [("type", .str "array"), ("items", .obj [("$ref", .str pointer)])]),
      ("$ref", .obj [("examples", .arr [.obj [("a/b", .str "#up")]]), ("type", .str "object"),
        ("additionalProperties", .obj [("$ref", .str pointer)])])])]

theorem treeGraph_unwritten : Unwritten treeGraph 0 "$ref" := by
  constructor
  · rintro (_ | _ | _ | _ | t) properties index own - ⟨⟩ p listed
    · simp only [List.mem_cons, List.not_mem_nil, or_false] at listed
      rcases listed with rfl | rfl
      · decide
      · decide
    · cases listed
  · rintro (_ | _ | _ | _ | t) v - (admits | ⟨admits, -⟩)
    all_goals cases admits

theorem treeGraph_rebase_compiled :
    treeGraph.compile 0 [] [] = .ok (treeSchema "#") ∧
      rebase none ["paths", "/x"] (.obj [("schema", treeSchema "#")]) =
        .obj [("schema", treeSchema "#/paths/~1x/schema")] ∧
      treeGraph.compile 0 ["paths", "/x", "schema"] [] =
        .ok (treeSchema "#/paths/~1x/schema") := by
  have top : treeGraph.compile 0 [] [] = .ok (treeSchema "#") := by
    cbv
  have rebased : rebase none ["paths", "/x"] (.obj [("schema", treeSchema "#")]) =
      .obj [("schema", treeSchema "#/paths/~1x/schema")] := by
    cbv
  obtain ⟨s', inPlace, same⟩ := rebase_compiled ["paths", "/x"] treeGraph_unwritten top
  rw [rebased] at same
  obtain rfl : treeSchema "#/paths/~1x/schema" = s' := by
    simpa using same
  exact ⟨top, rebased, inPlace⟩

end RouteContract.OpenApi
