import Mathlib.Data.List.Permutation
import RouteContract.Proofs.Shape.LiteralUnion
import RouteContract.Proofs.Shape.Reach

/-!
# Back references

An object type that is met again while it is being expanded compiles to a reference. Such a
reference names the way on which the type was entered, and at the end of that way in the finished
schema stands what the type was expanded to there, under the annotations of the property that holds
it: every reference that compilation makes points at one of its own ancestors
(`back_references_resolve`). Any other reference in a compiled schema was written by hand, in the
annotations of a property or in a value that the type admits.
-/

set_option autoImplicit false

namespace RouteContract.Shape

open RouteContract Pointer

/-! ## References in a schema -/

/-- At these steps into a value stands an object that has this text for a reference. -/
def ReferenceAt (S : Json) (steps : List Step) (text : String) : Prop :=
  S.at? (steps ++ [.key "$ref"]) = some (.str text)

/-- A value that a type admits as it is written. -/
inductive Admits (g : Graph) (t : TypeId) : Json → Prop where
  | literal {kind : ScalarKind} {value : Json} :
      g.shape t = .literal kind value → Admits g t value
  | enumeration {values : List Json} {name : String} {value : Json} :
      g.shape t = .enumeration values name → value ∈ values → Admits g t value

/-- The references of a compiled schema that its types were declared with. -/
inductive WrittenByHand (g : Graph) (root : TypeId) : List Step → String → Prop where
  | note {frames : List Frame} {way : Way} {notes : Table Json} {t : TypeId}
      {properties : List Property} {index : Option TypeId} {name : String} {p : Property}
      {rest : List Step} {text : String} :
      Site g root frames way notes t → g.shape t = .object properties index name →
      t ∉ entered frames → Prevails properties p →
      ReferenceAt (.obj p.annotations) rest text →
      WrittenByHand g root (Way.steps (way ++ [.property p.name]) ++ rest) text
  | value {frames : List Frame} {way : Way} {notes : Table Json} {t : TypeId} {v : Json}
      {i : Nat} {rest : List Step} {text : String} :
      Site g root frames way notes t → Admits g t v → ReferenceAt v rest text →
      WrittenByHand g root (way.steps ++ .key "enum" :: .index i :: rest) text

/-- A type is met again at the end of a way, while it is being expanded. -/
def MetAgain (g : Graph) (root : TypeId) (steps : List Step) : Prop :=
  ∃ frames way notes t, Site g root frames way notes t ∧ t ∈ entered frames ∧ steps = way.steps

/-! ## Where references stand -/

section Places

variable {text : String} {rest : List Step}

/-- A reference below the members of an object stands at the object itself or below a member. -/
theorem referenceAt_obj {members : Table Json} (h : ReferenceAt (.obj members) rest text) :
    rest = [] ∧ Table.get? members "$ref" = some (.str text) ∨
      ∃ key v tail, rest = .key key :: tail ∧ Table.get? members key = some v ∧
        ReferenceAt v tail text := by
  cases rest with
  | nil =>
      refine .inl ⟨rfl, ?_⟩
      rw [ReferenceAt, List.nil_append, Json.at?_cons, Json.child?_obj_key] at h
      cases found : Table.get? members "$ref" with
      | none => simp [found] at h
      | some v => simpa [found] using h
  | cons step tail =>
      rw [ReferenceAt, List.cons_append, Json.at?_cons] at h
      obtain ⟨v, found, below⟩ := Option.bind_eq_some_iff.1 h
      cases step with
      | index i => simp at found
      | key key => exact .inr ⟨key, v, tail, rfl, found, below⟩

/-- Below an object that is no reference itself, a reference stands below a member. -/
theorem referenceAt_member {members : Table Json} (plain : Table.get? members "$ref" = none)
    (h : ReferenceAt (.obj members) rest text) :
    ∃ key v tail, rest = .key key :: tail ∧ Table.get? members key = some v ∧
      (key, v) ∈ members ∧ ReferenceAt v tail text := by
  rcases referenceAt_obj h with ⟨-, found⟩ | ⟨key, v, tail, rfl, found, below⟩
  · rw [plain] at found
    exact nomatch found
  · exact ⟨key, v, tail, rfl, found, Table.mem_of_get? found, below⟩

theorem referenceAt_arr {items : List Json} (h : ReferenceAt (.arr items) rest text) :
    ∃ i v tail, rest = .index i :: tail ∧ items[i]? = some v ∧ ReferenceAt v tail text := by
  cases rest with
  | nil => simp [ReferenceAt, Json.at?_cons] at h
  | cons step tail =>
      rw [ReferenceAt, List.cons_append, Json.at?_cons] at h
      obtain ⟨v, found, below⟩ := Option.bind_eq_some_iff.1 h
      cases step with
      | key key => simp at found
      | index i => exact ⟨i, v, tail, rfl, found, below⟩

theorem not_referenceAt_of_child?_eq_none {v : Json} (leaf : ∀ step, v.child? step = none) :
    ¬ ReferenceAt v rest text := by
  intro h
  cases rest with
  | nil => simp [ReferenceAt, Json.at?_cons, leaf] at h
  | cons step tail => simp [ReferenceAt, Json.at?_cons, leaf] at h

theorem not_referenceAt_str (s : String) : ¬ ReferenceAt (.str s) rest text :=
  not_referenceAt_of_child?_eq_none (Json.child?_str s)

theorem not_referenceAt_bool (b : Bool) : ¬ ReferenceAt (.bool b) rest text :=
  not_referenceAt_of_child?_eq_none (Json.child?_bool b)

/-- Values that are not made of others hold no references. -/
theorem not_referenceAt_of_isAtom {v : Json} (atom : isAtom v = true) :
    ¬ ReferenceAt v rest text := by
  refine not_referenceAt_of_child?_eq_none fun step => ?_
  cases v with
  | arr items => simp [isAtom] at atom
  | obj members => simp [isAtom] at atom
  | null | bool b | int i | float x | str s => cases step <;> rfl

theorem not_referenceAt_atoms {items : List Json} (atoms : ∀ v ∈ items, isAtom v = true) :
    ¬ ReferenceAt (.arr items) rest text := by
  intro h
  obtain ⟨i, v, tail, -, found, below⟩ := referenceAt_arr h
  exact not_referenceAt_of_isAtom (atoms v (List.mem_of_getElem? found)) below

theorem not_referenceAt_texts (names : List String) :
    ¬ ReferenceAt (.arr (names.map .str)) rest text := by
  refine not_referenceAt_atoms fun v member => ?_
  obtain ⟨name, -, rfl⟩ := List.mem_map.1 member
  rfl

theorem not_referenceAt_typed (name : String) :
    ¬ ReferenceAt (.obj [("type", .str name)]) rest text := by
  intro h
  obtain ⟨key, v, tail, -, -, member, below⟩ := referenceAt_member rfl h
  simp only [List.mem_singleton, Prod.mk.injEq] at member
  rw [member.2] at below
  exact not_referenceAt_str _ below

theorem not_referenceAt_flag (b : Bool) :
    ¬ ReferenceAt (.obj [("type", .str "boolean"), ("enum", .arr [.bool b])]) rest text := by
  intro h
  obtain ⟨key, v, tail, -, -, member, below⟩ := referenceAt_member rfl h
  simp only [List.mem_cons, Prod.mk.injEq, List.not_mem_nil, or_false] at member
  rcases member with ⟨-, rfl⟩ | ⟨-, rfl⟩
  · exact not_referenceAt_str _ below
  · refine not_referenceAt_atoms (fun w among => ?_) below
    rw [List.mem_singleton.1 among]
    rfl

/-- The branch of the boolean literals of a union holds no references. -/
theorem not_referenceAt_folded {g : Graph} {members : List TypeId} {v : Json}
    (member : v ∈ g.folded members) : ¬ ReferenceAt v rest text := by
  intro h
  rw [Graph.folded] at member
  split at member
  · exact List.not_mem_nil member
  · rw [List.mem_singleton.1 member] at h
    simp only [booleanBranch] at h
    split at h
    · exact not_referenceAt_flag true h
    · split at h
      · exact not_referenceAt_flag false h
      · exact not_referenceAt_typed _ h

/-- A reference in the schema of an object type stands in what it says about members that it does
not declare, or in the schema of a property. -/
theorem referenceAt_objectSchema {additional : Json} {required : List String}
    {properties : Table Json}
    (entries : ∀ key v, Table.get? properties key = some v → ∃ members, v = .obj members)
    (h : ReferenceAt (objectSchema additional required properties) rest text) :
    (∃ tail, rest = .key "additionalProperties" :: tail ∧ ReferenceAt additional tail text) ∨
      ∃ key v tail, rest = .key "properties" :: .key key :: tail ∧
        Table.get? properties key = some v ∧ ReferenceAt v tail text := by
  obtain ⟨key, v, tail, rfl, -, member, below⟩ :=
    referenceAt_member (by cases required.isEmpty <;> cases properties.isEmpty <;> rfl) h
  simp only [List.mem_append, List.mem_cons, Prod.mk.injEq, List.not_mem_nil, or_false] at member
  rcases member with ((⟨-, rfl⟩ | ⟨rfl, rfl⟩) | member) | member
  · exact absurd below (not_referenceAt_str _)
  · exact .inl ⟨tail, rfl, below⟩
  · split at member
    · exact absurd member List.not_mem_nil
    · rw [(Prod.mk.inj (List.mem_singleton.1 member)).2] at below
      exact absurd below (not_referenceAt_texts _)
  · split at member
    · exact absurd member List.not_mem_nil
    · obtain ⟨rfl, rfl⟩ := Prod.mk.inj (List.mem_singleton.1 member)
      rcases referenceAt_obj below with ⟨-, found⟩ | ⟨key, v, tail, rfl, found, below⟩
      · obtain ⟨members, impossible⟩ := entries _ _ found
        exact nomatch impossible
      · exact .inr ⟨key, v, tail, rfl, found, below⟩

/-- A reference below annotations and compiled keywords is one of the first or one of the second. -/
theorem referenceAt_annotated {notes : Table Json} {s : Json} (isSchema : IsSchema s)
    (h : ReferenceAt (annotated notes s) rest text) :
    ReferenceAt (.obj notes) rest text ∨ ReferenceAt s rest text := by
  obtain ⟨members, rfl, distinct⟩ := isSchema
  have read (key : String) : Table.get? (Table.putAll notes members) key =
      (Table.get? members key).or (Table.get? notes key) := by
    rw [Table.get?_putAll, Table.get?_reverse distinct]
  have go (key : String) (tail : List Step) (below : ReferenceAt
      (.obj (Table.putAll notes members)) rest text)
      (at_key : rest ++ [.key "$ref"] = .key key :: tail) :
      ReferenceAt (.obj notes) rest text ∨ ReferenceAt (.obj members) rest text := by
    simp only [ReferenceAt, at_key, Json.at?_cons, Json.child?_obj_key, read] at below ⊢
    cases found : Table.get? members key with
    | none =>
        rw [found, Option.none_or] at below
        exact .inl below
    | some v =>
        rw [found, Option.some_or] at below
        exact .inr below
  rcases referenceAt_obj h with ⟨rfl, -⟩ | ⟨key, v, tail, rfl, -, -⟩
  · exact go _ _ h rfl
  · exact go _ _ h rfl

end Places

/-! ## Types that are met again -/

variable {g : Graph} {root t : TypeId} {start : List String} {S : Json} {frames : List Frame}
  {way : Way} {notes : Table Json}

/-- A type that is met again compiles to the reference to where it was entered. -/
theorem Site.referenceAt_again (compiled : g.compile root start [] = .ok S)
    (site : Site g root frames way notes t) (again : t ∈ entered frames) :
    ∃ (k : Nat) (f : Frame), frames[k]? = some f ∧ f.type = t ∧
      ReferenceAt S way.steps (Pointer.fragment (start ++ f.way.segments)) := by
  obtain ⟨s, part, standing⟩ := site.at?_compiled compiled
  have isObject : g.isObject t = true := by
    obtain ⟨f, member, rfl⟩ := List.mem_map.1 again
    obtain ⟨k, found⟩ := List.mem_iff_getElem?.1 member
    exact (site.frame found).2.2.1
  cases shape : g.shape t with
  | object properties index name =>
      have expands := expands_of_compile part
      simp only [Expands, shape, ExpandsObject] at expands
      split at expands
      · next entry met =>
          obtain ⟨f, member, rfl⟩ := List.mem_map.1 (List.mem_of_find?_eq_some met)
          obtain ⟨k, found⟩ := List.mem_iff_getElem?.1 member
          have same : f.type = t := by simpa [Frame.visit] using List.find?_some met
          refine ⟨k, f, found, same, ?_⟩
          rw [ReferenceAt, Json.at?_append, standing, Option.bind_some, Json.at?_cons,
            child?_annotated (isSchema_of_compile part) notes (by rw [expands]; rfl)]
          rfl
      · next met => exact absurd again (find?_visits_eq_none_iff.1 met)
  | scalar | literal | array | tuple | union | intersection | enumeration | null | any
  | undescribed | bare => simp [Graph.isObject, shape] at isObject

/-! ## Every other reference was written by hand -/

/-- Where a reference of a compiled schema comes from. -/
def Explained (g : Graph) (root : TypeId) (steps : List Step) (text : String) : Prop :=
  MetAgain g root steps ∨ WrittenByHand g root steps text

theorem Explained.of_eq {steps steps' : List Step} {text : String}
    (h : Explained g root steps text) (same : steps = steps') : Explained g root steps' text :=
  same ▸ h

/-- The references of a schema that stands at a site are explained. -/
def SiteExplained (g : Graph) (root : TypeId) (start : List String) (visited : Visited)
    (path : List String) (t : TypeId) (s : Json) : Prop :=
  ∀ frames way notes, visited = frames.map (Frame.visit start) → path = start ++ way.segments →
    Site g root frames way notes t → ∀ rest text, ReferenceAt s rest text →
      Explained g root (way.steps ++ rest) text

/-- What holds at the schema of a part holds under the annotations that a property puts over it. -/
theorem explained_property {properties : List Property} {index : Option TypeId} {name : String}
    {p : Property} {s : Json} {rest : List Step} {text : String}
    (site : Site g root frames way notes t) (shape : g.shape t = .object properties index name)
    (new : t ∉ entered frames) (prevails : Prevails properties p)
    (part : p.isSelfTyped = false → IsSchema s ∧
      ∀ rest text, ReferenceAt s rest text →
        Explained g root (Way.steps (way ++ [.property p.name]) ++ rest) text)
    (h : ReferenceAt (p.fragment s) rest text) :
    Explained g root (Way.steps (way ++ [.property p.name]) ++ rest) text := by
  have byHand (written : ReferenceAt (.obj p.annotations) rest text) :
      Explained g root (Way.steps (way ++ [.property p.name]) ++ rest) text :=
    .inr (.note site shape new prevails written)
  cases typed : p.isSelfTyped with
  | true =>
      rw [Property.fragment, if_pos typed] at h
      exact byHand h
  | false =>
      rw [Property.fragment, typed] at h
      rcases referenceAt_annotated (part typed).1 h with written | below
      · exact byHand written
      · exact (part typed).2 _ _ below

/-- Values that are taken over as they are explain the references in them. -/
theorem explained_values {values : List Json} {first : String} {rest : List Step} {text : String}
    (site : Site g root frames way notes t) (admits : ∀ v ∈ values, Admits g t v)
    (h : ReferenceAt (.obj [("type", .str first), ("enum", .arr values)]) rest text) :
    Explained g root (way.steps ++ rest) text := by
  obtain ⟨key, v, tail, rfl, -, member, below⟩ := referenceAt_member rfl h
  simp only [List.mem_cons, Prod.mk.injEq, List.not_mem_nil, or_false] at member
  rcases member with ⟨rfl, rfl⟩ | ⟨rfl, rfl⟩
  · exact absurd below (not_referenceAt_str _)
  · obtain ⟨i, v, tail, rfl, found, below⟩ := referenceAt_arr below
    exact .inr (.value site (admits v (List.mem_of_getElem? found)) below)

theorem explained_parts (key : String) (move : Nat → Move) {parts : List TypeId}
    {schemas : List Json} {i : Nat} {v : Json} {tail : List Step} {text : String}
    {path : Nat → List String}
    {visited : Visited} (steps : ∀ i, (move i).steps = [.key key, .index i])
    (each : EachPart (fun path u s =>
      g.compile u path visited = .ok s ∧ SiteExplained g root start visited path u s)
      path parts schemas)
    (visits : visited = frames.map (Frame.visit start))
    (at_path : ∀ i, path i = start ++ Way.segments (way ++ [move i]))
    (site : ∀ (i : Nat) (u : TypeId), parts[i]? = some u →
      Site g root frames (way ++ [move i]) [] u)
    (found : schemas[i]? = some v) (below : ReferenceAt v tail text) :
    Explained g root (way.steps ++ .key key :: .index i :: tail) text := by
  obtain ⟨u, hu⟩ := getElem?_of_length_eq each.1.symm found
  refine ((each.2 i u v hu found).2 _ _ _ visits (at_path i) (site i u hu) _ _ below).of_eq ?_
  rw [Way.steps_concat, steps, List.append_assoc]
  rfl

/-- One step of compilation explains the references of a schema when those of its parts are. -/
theorem siteExplained_of_expands
    (plain : ∀ u, g.Reaches root u → ∀ members, g.shape u ≠ .intersection members)
    {visited : Visited} {path : List String} {s : Json}
    (h : Expands g (fun visited path u s =>
      g.compile u path visited = .ok s ∧ SiteExplained g root start visited path u s)
      visited path t s) :
    SiteExplained g root start visited path t s := by
  rintro frames way notes rfl rfl site rest text below
  cases shape : g.shape t with
  | scalar kind =>
      simp only [Expands, shape] at h
      subst h
      exact absurd below (not_referenceAt_typed _)
  | literal kind value =>
      simp only [Expands, shape] at h
      subst h
      refine explained_values site (fun v member => ?_) below
      rw [List.mem_singleton.1 member]
      exact .literal shape
  | array element =>
      simp only [Expands, shape] at h
      obtain ⟨items, ⟨-, part⟩, rfl⟩ := h
      obtain ⟨key, v, tail, rfl, -, member, below⟩ := referenceAt_member rfl below
      simp only [List.mem_cons, Prod.mk.injEq, List.not_mem_nil, or_false] at member
      rcases member with ⟨rfl, rfl⟩ | ⟨rfl, rfl⟩
      · exact absurd below (not_referenceAt_str _)
      · refine (part _ _ _ rfl ?_ (site.items shape) _ _ below).of_eq ?_
        · rw [Way.segments_concat, ← List.append_assoc]
          rfl
        · rw [Way.steps_concat, List.append_assoc]
          rfl
  | tuple elements =>
      simp only [Expands, shape] at h
      obtain ⟨items, each, rfl⟩ := h
      obtain ⟨key, v, tail, rfl, -, member, below⟩ := referenceAt_member rfl below
      simp only [List.mem_cons, Prod.mk.injEq, List.not_mem_nil, or_false] at member
      rcases member with ⟨rfl, rfl⟩ | ⟨rfl, rfl⟩
      · exact absurd below (not_referenceAt_str _)
      · obtain ⟨i, v, tail, rfl, found, below⟩ := referenceAt_arr below
        exact explained_parts "items" .item (fun _ => rfl) each rfl
          (fun i => by rw [Way.segments_concat, ← List.append_assoc]; rfl)
          (fun i u hu => site.item shape hu) found below
  | object properties index name =>
      simp only [Expands, shape, ExpandsObject] at h
      split at h
      · next entry met =>
          subst h
          have again : t ∈ entered frames := by
            by_contra new
            rw [find?_visits_eq_none_iff.2 new] at met
            cases met
          rcases referenceAt_obj below with ⟨rfl, -⟩ | ⟨key, v, tail, rfl, found, below⟩
          · exact .inl ⟨_, _, _, _, site, again, List.append_nil _⟩
          · have member := Table.mem_of_get? found
            simp only [List.mem_singleton, Prod.mk.injEq] at member
            rw [member.2] at below
            exact absurd below (not_referenceAt_str _)
      · next met =>
          have new := find?_visits_eq_none_iff.1 met
          obtain ⟨schemas, additional, ⟨length, each⟩, indexed, rfl⟩ := h
          have fragments (key : String) (v : Json) (found :
              Table.get? (Table.ofList (propertyEntries properties schemas)) key = some v) :
              ∃ members, v = .obj members := by
            obtain ⟨i, p, s, -, -, -, -, rfl⟩ := prevails_of_get?_propertyEntries length found
            exact p.fragment_eq_obj s
          rcases referenceAt_objectSchema fragments below with
            ⟨tail, rfl, below⟩ | ⟨key, v, tail, rfl, found, below⟩
          · cases index with
            | none =>
                rw [IndexPart] at indexed
                rw [indexed] at below
                exact absurd below (not_referenceAt_bool _)
            | some u =>
                refine (indexed.2 _ _ _ (visits_concat _ _ _ _ _).symm ?_
                  (site.additional shape new) _ _ below).of_eq ?_
                · rw [Way.segments_concat, ← List.append_assoc]
                  rfl
                · rw [Way.steps_concat, List.append_assoc]
                  rfl
          · obtain ⟨i, p, s, hp, hs, prevails, rfl, rfl⟩ :=
              prevails_of_get?_propertyEntries length found
            refine (explained_property site shape new prevails ?_ below).of_eq ?_
            · intro typed
              obtain ⟨compiled, explained⟩ := each i p s hp hs typed
              refine ⟨isSchema_of_compile compiled,
                explained _ _ _ (visits_concat _ _ _ _ _).symm ?_
                  (site.property shape new prevails typed)⟩
              rw [Way.segments_concat, ← List.append_assoc]
              rfl
            · rw [Way.steps_concat, List.append_assoc]
              rfl
  | union members =>
      simp only [Expands, shape, ExpandsUnion] at h
      split at h
      · obtain ⟨values, ordered, rfl⟩ := h
        obtain ⟨key, v, tail, rfl, -, member, below⟩ := referenceAt_member rfl below
        simp only [List.mem_cons, Prod.mk.injEq, List.not_mem_nil, or_false] at member
        rcases member with ⟨rfl, rfl⟩ | ⟨rfl, rfl⟩
        · exact absurd below (not_referenceAt_str _)
        · exact absurd below
            (not_referenceAt_atoms fun v member => isAtom_of_mem_orderedValues ordered member)
      · next mixed =>
          obtain ⟨schemas, each, rfl⟩ := h
          obtain ⟨key, v, tail, rfl, -, member, below⟩ := referenceAt_member rfl below
          simp only [List.mem_singleton, Prod.mk.injEq] at member
          obtain ⟨rfl, rfl⟩ := member
          obtain ⟨i, v, tail, rfl, found, below⟩ := referenceAt_arr below
          rcases Nat.lt_or_ge i schemas.length with lt | ge
          · rw [List.getElem?_append_left lt] at found
            exact explained_parts "anyOf" .branch (fun _ => rfl) each rfl
              (fun i => by rw [Way.segments_concat, ← List.append_assoc]; rfl)
              (fun i u hu => site.branch shape mixed hu) found below
          · rw [List.getElem?_append_right ge] at found
            exact absurd below (not_referenceAt_folded (List.mem_of_getElem? found))
  | intersection members => exact absurd shape (plain t site.reaches members)
  | enumeration values name =>
      simp only [Expands, shape] at h
      subst h
      cases values with
      | nil =>
          obtain ⟨key, v, tail, -, -, member, -⟩ := referenceAt_member rfl below
          exact absurd member List.not_mem_nil
      | cons first more =>
          exact explained_values site (fun v member => .enumeration shape member) below
  | null =>
      simp only [Expands, shape] at h
      subst h
      exact absurd below (not_referenceAt_typed _)
  | any =>
      simp only [Expands, shape] at h
      subst h
      obtain ⟨key, v, tail, -, -, member, -⟩ := referenceAt_member rfl below
      exact absurd member List.not_mem_nil
  | undescribed | bare => simp only [Expands, shape] at h

/-- Types without annotations, whose admitted values are no arrays and no objects, write no
references by hand. -/
theorem not_writtenByHand {steps : List Step} {text : String}
    (unannotated : ∀ t, g.Reaches root t → ∀ properties index name,
      g.shape t = .object properties index name → ∀ p ∈ properties, p.annotations = [])
    (atoms : ∀ t, g.Reaches root t → ∀ v, Admits g t v → isAtom v = true) :
    ¬ WrittenByHand g root steps text := by
  intro written
  cases written with
  | note site shape _ prevails reference =>
      rw [unannotated _ site.reaches _ _ _ shape _ (List.mem_of_mem_filter prevails.mem)]
        at reference
      obtain ⟨key, v, tail, -, -, member, -⟩ := referenceAt_member rfl reference
      exact List.not_mem_nil member
  | value site admits reference =>
      exact not_referenceAt_of_isAtom (atoms _ site.reaches _ admits) reference

/-! ## Back references resolve -/

/-- The place at which a type was entered that is being expanded: what the type was expanded to
there stands in the finished schema, under the annotations of the property that holds it. -/
structure EntryOf (g : Graph) (root : TypeId) (start : List String) (S : Json)
    (frames : List Frame) (t : TypeId) (k : Nat) (f : Frame) : Prop where
  found : frames[k]? = some f
  type_eq : f.type = t
  new : t ∉ entered (frames.take k)
  standing : ∃ notes s, Site g root (frames.take k) f.way notes t ∧
    g.compile t (start ++ f.way.segments) ((frames.take k).map (Frame.visit start)) = .ok s ∧
    S.at? f.way.steps = some (annotated notes s)

/-- **Every reference that compilation makes points at one of its ancestors**: where a type is met
again, the reference names the way on which that type was entered, a part of its own way, and what
the type was expanded to stands at the end of it. All other references were written by hand. -/
theorem back_references_resolve (compiled : g.compile root start [] = .ok S)
    (plain : ∀ u, g.Reaches root u → ∀ members, g.shape u ≠ .intersection members) :
    (∀ (frames : List Frame) (way : Way) (notes : Table Json) (t : TypeId),
      Site g root frames way notes t → t ∈ entered frames →
        ∃ k f, EntryOf g root start S frames t k f ∧ f.way ++ [f.exit] <+: way ∧
          ReferenceAt S way.steps (Pointer.fragment (start ++ f.way.segments))) ∧
      ∀ steps text, ReferenceAt S steps text →
        MetAgain g root steps ∨ WrittenByHand g root steps text := by
  constructor
  · intro frames way notes t site again
    obtain ⟨k, f, found, rfl, reference⟩ := site.referenceAt_again compiled again
    obtain ⟨⟨notes', above⟩, new, -, further⟩ := site.frame found
    obtain ⟨s, part, standing⟩ := above.at?_compiled compiled
    exact ⟨k, f, ⟨found, rfl, new, notes', s, above, part, standing⟩, further, reference⟩
  · intro steps text reference
    have explained : SiteExplained g root start [] start root S :=
      compile_induction (fun _ _ _ _ => siteExplained_of_expands plain) compiled
    refine explained [] [] [] rfl ?_ .root steps text reference
    rw [Way.segments, Way.steps, List.flatMap_nil, List.map_nil, List.append_nil]

/-- Lists of chains: a chain is an object whose rest is a flag, nothing, or a chain again. -/
def chainGraph : Graph :=
  ⟨#[⟨.array 1, none⟩,
    ⟨.object [⟨"rest", 2, false, [("description", .str "what follows")]⟩] none "Chain", none⟩,
    ⟨.union [3, 4, 1], none⟩, ⟨.literal .boolean (.bool true), none⟩, ⟨.null, none⟩]⟩

theorem chainGraph_back_references_resolve :
    ∃ S, chainGraph.compile 0 ["schemas"] [] = .ok S ∧
      ReferenceAt S
        [.key "items", .key "properties", .key "rest", .key "anyOf", .index 1] "#/schemas/items" ∧
      ∀ steps text, ReferenceAt S steps text →
        MetAgain chainGraph 0 steps ∨ WrittenByHand chainGraph 0 steps text := by
  have compiled : chainGraph.compile 0 ["schemas"] [] = .ok (.obj [("type", .str "array"),
      ("items", .obj [("type", .str "object"), ("additionalProperties", .bool false),
        ("required", .arr [.str "rest"]),
        ("properties", .obj [("rest", .obj [("description", .str "what follows"),
          ("anyOf", .arr [.obj [("type", .str "null")],
            .obj [("$ref", .str "#/schemas/items")],
            .obj [("type", .str "boolean"), ("enum", .arr [.bool true])]])])])])]) := by
    cbv
  refine ⟨_, compiled, by cbv, (back_references_resolve compiled ?_).2⟩
  intro u _ members
  rcases u with _ | _ | _ | _ | _ | u <;> simp [Graph.shape, Graph.node, chainGraph]

end RouteContract.Shape
