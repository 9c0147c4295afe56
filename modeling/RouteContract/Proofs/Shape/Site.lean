import RouteContract.Proofs.Json.Place
import RouteContract.Proofs.Shape.Expansion

/-!
# Where the schemas of types stand

Compiling a type compiles its parts, their parts, and so on. A site is a type that is compiled on
the way, together with the object types that are being expanded around it and the way that leads to
its schema in the finished one (`Site`). Of several properties with one name only the last one has
a site: the schemas of the others are written over.

Each site keeps what its type was compiled to: at the end of the way stands that schema, under the
annotations of the property that holds it (`Site.at?_compiled`). The object types around a site are
sites themselves, each strictly further up on the same way (`Site.frame`).
-/

set_option autoImplicit false

namespace RouteContract.Shape

open RouteContract Pointer

/-! ## Ways -/

/-- A move from the schema of a type to that of one of its parts. -/
inductive Move where
  | items
  | item (position : Nat)
  | property (name : String)
  | additional
  | branch (position : Nat)
deriving Repr, DecidableEq

/-- The steps of a move. -/
def Move.steps : Move → List Step
  | .items => [.key "items"]
  | .item position => [.key "items", .index position]
  | .property name => [.key "properties", .key name]
  | .additional => [.key "additionalProperties"]
  | .branch position => [.key "anyOf", .index position]

/-- The moves from the schema of one type to that of another one. -/
abbrev Way := List Move

/-- The steps of a way. -/
def Way.steps (way : Way) : List Step := way.flatMap Move.steps

/-- The segments of a way. -/
def Way.segments (way : Way) : List String := way.steps.map Step.segment

theorem Way.steps_append (first second : Way) :
    (first ++ second).steps = first.steps ++ second.steps :=
  List.flatMap_append

theorem Way.steps_concat (way : Way) (move : Move) :
    Way.steps (way ++ [move]) = way.steps ++ move.steps := by
  rw [Way.steps_append, Way.steps, Way.steps, List.flatMap_singleton]

theorem Way.segments_concat (way : Way) (move : Move) :
    Way.segments (way ++ [move]) = way.segments ++ move.steps.map Step.segment := by
  rw [Way.segments, Way.steps_concat, List.map_append]
  rfl

/-! ## Sites -/

/-- An object type that is being expanded, the way on which it was entered, and the move by which it
was left for the part that is compiled. -/
structure Frame where
  type : TypeId
  way : Way
  exit : Move

/-- A frame as compilation records it, in a schema that stands at a path. -/
def Frame.visit (start : List String) (frame : Frame) : Visit :=
  ⟨frame.type, start ++ frame.way.segments⟩

/-- The object types of frames. -/
def entered (frames : List Frame) : List TypeId := frames.map (·.type)

/-- A property whose schema stands under its name: no later one writes over it. -/
def Prevails (properties : List Property) (p : Property) : Prop :=
  ∃ i, (participating properties)[i]? = some p ∧
    ∀ (j : Nat) (q : Property), i < j → (participating properties)[j]? = some q → q.name ≠ p.name

/-- The types that are compiled on the way from a root type, each with the frames around it, its
way, and the annotations that are merged under its schema. -/
inductive Site (g : Graph) (root : TypeId) : List Frame → Way → Table Json → TypeId → Prop where
  | root : Site g root [] [] [] root
  | items {frames : List Frame} {way : Way} {notes : Table Json} {t element : TypeId} :
      Site g root frames way notes t → g.shape t = .array element →
      Site g root frames (way ++ [.items]) [] element
  | item {frames : List Frame} {way : Way} {notes : Table Json} {t u : TypeId}
      {elements : List TypeId} {i : Nat} :
      Site g root frames way notes t → g.shape t = .tuple elements → elements[i]? = some u →
      Site g root frames (way ++ [.item i]) [] u
  | property {frames : List Frame} {way : Way} {notes : Table Json} {t : TypeId}
      {properties : List Property} {index : Option TypeId} {name : String} {p : Property} :
      Site g root frames way notes t → g.shape t = .object properties index name →
      t ∉ entered frames → Prevails properties p → p.isSelfTyped = false →
      Site g root (frames ++ [⟨t, way, .property p.name⟩]) (way ++ [.property p.name])
        p.annotations p.type
  | additional {frames : List Frame} {way : Way} {notes : Table Json} {t u : TypeId}
      {properties : List Property} {name : String} :
      Site g root frames way notes t → g.shape t = .object properties (some u) name →
      t ∉ entered frames →
      Site g root (frames ++ [⟨t, way, .additional⟩]) (way ++ [.additional]) [] u
  | branch {frames : List Frame} {way : Way} {notes : Table Json} {t u : TypeId}
      {members : List TypeId} {i : Nat} :
      Site g root frames way notes t → g.shape t = .union members →
      g.collapsed? members = none → (g.branches members)[i]? = some u →
      Site g root frames (way ++ [.branch i]) [] u

variable {g : Graph} {root : TypeId}

/-! ## The frames around a site -/

theorem getElem?_concat_cases {α : Type} {xs : List α} {x y : α} {k : Nat}
    (h : (xs ++ [x])[k]? = some y) :
    xs[k]? = some y ∧ (xs ++ [x]).take k = xs.take k ∨
      k = xs.length ∧ y = x ∧ (xs ++ [x]).take k = xs := by
  have bound := (List.getElem?_eq_some_iff.1 h).1
  rw [List.length_append, List.length_singleton] at bound
  rcases Nat.lt_or_ge k xs.length with lt | ge
  · rw [List.getElem?_append_left lt] at h
    exact .inl ⟨h, List.take_append_of_le_length (Nat.le_of_lt lt)⟩
  · obtain rfl : k = xs.length := by omega
    rw [List.getElem?_concat_length, Option.some.injEq] at h
    exact .inr ⟨rfl, h.symm, List.take_left⟩

/-- **The object types around a site are sites further up on its way**, each of them entered where
it was not being expanded. -/
theorem Site.frame {frames : List Frame} {way : Way} {notes : Table Json} {t : TypeId}
    (site : Site g root frames way notes t) {k : Nat} {f : Frame} (h : frames[k]? = some f) :
    (∃ notes', Site g root (frames.take k) f.way notes' f.type) ∧ f.type ∉ entered (frames.take k) ∧
      g.isObject f.type = true ∧ f.way ++ [f.exit] <+: way := by
  induction site with
  | root => simp at h
  | items _ _ ih | item _ _ _ ih | branch _ _ _ _ ih =>
      obtain ⟨above, fresh, isObject, further⟩ := ih h
      exact ⟨above, fresh, isObject, further.trans (List.prefix_append _ _)⟩
  | property site shape new _ _ ih | additional site shape new ih =>
      rcases getElem?_concat_cases h with ⟨h, take_eq⟩ | ⟨rfl, rfl, take_eq⟩
      · obtain ⟨above, fresh, isObject, further⟩ := ih h
        rw [take_eq]
        exact ⟨above, fresh, isObject, further.trans (List.prefix_append _ _)⟩
      · rw [take_eq]
        exact ⟨⟨_, site⟩, new, by rw [Graph.isObject, shape], List.prefix_refl _⟩

/-! ## Compiled schemas are tables -/

/-- A schema is a table with distinct keywords. -/
def IsSchema (s : Json) : Prop := ∃ members, s = .obj members ∧ (Table.keys members).Nodup

theorem annotated_nil {s : Json} (h : IsSchema s) : annotated [] s = s := by
  obtain ⟨members, rfl, distinct⟩ := h
  exact congrArg Json.obj (Table.ofList_eq_self distinct)

/-- A keyword that was compiled counts, whatever annotations say under it. -/
theorem child?_annotated {s : Json} (isSchema : IsSchema s) (notes : Table Json) {key : String}
    {value : Json} (h : s.child? (.key key) = some value) :
    (annotated notes s).child? (.key key) = some value := by
  obtain ⟨members, rfl, distinct⟩ := isSchema
  rw [Json.child?_obj_key] at h
  rw [annotated, Json.child?_obj_key, Table.get?_putAll]
  change (Table.get? members.reverse key).or _ = _
  rw [Table.get?_reverse distinct, h, Option.some_or]

theorem child?_objectSchema_additional (additional : Json) (required : List String)
    (properties : Table Json) :
    (objectSchema additional required properties).child? (.key "additionalProperties") =
      some additional := rfl

theorem child?_objectSchema_properties (additional : Json) (required : List String)
    {properties : Table Json} (h : properties ≠ []) :
    (objectSchema additional required properties).child? (.key "properties") =
      some (.obj properties) := by
  have nonempty : properties.isEmpty = false := by simpa using h
  rw [objectSchema, Json.child?_obj_key, nonempty]
  cases required.isEmpty <;> rfl

theorem isSchema_objectSchema (additional : Json) (required : List String)
    (properties : Table Json) : IsSchema (objectSchema additional required properties) := by
  refine ⟨_, rfl, ?_⟩
  cases required.isEmpty <;> cases properties.isEmpty <;> simp [Table.keys]

theorem nodup_keys_ite_put {done : Table Json} (distinct : (Table.keys done).Nodup) {c : Prop}
    [Decidable c] {key : String} {value : Json} :
    (Table.keys (if c then done else Table.put done key value)).Nodup := by
  split
  · exact distinct
  · exact Table.nodup_keys_put distinct _ _

theorem nodup_keys_intersectWith {done : Table Json} (distinct : (Table.keys done).Nodup)
    (s : Json) : (Table.keys (intersectWith done s)).Nodup := by
  refine nodup_keys_ite_put (nodup_keys_ite_put ?_)
  split
  · exact distinct
  · exact distinct
  · exact distinct
  · exact Table.nodup_keys_put distinct _ _

theorem nodup_keys_foldl_intersectWith (schemas : List Json) {done : Table Json}
    (distinct : (Table.keys done).Nodup) :
    (Table.keys (schemas.foldl intersectWith done)).Nodup := by
  induction schemas generalizing done with
  | nil => exact distinct
  | cons s rest ih => exact ih (nodup_keys_intersectWith distinct s)

theorem isSchema_of_expands {sub : Visited → List String → TypeId → Json → Prop}
    {visited : Visited} {path : List String} {t : TypeId} {s : Json}
    (h : Expands g sub visited path t s) : IsSchema s := by
  cases shape : g.shape t with
  | scalar kind =>
      simp only [Expands, shape] at h
      exact ⟨_, h, by simp [Table.keys]⟩
  | literal kind value =>
      simp only [Expands, shape] at h
      exact ⟨_, h, by simp [Table.keys]⟩
  | array element =>
      simp only [Expands, shape] at h
      obtain ⟨items, -, rfl⟩ := h
      exact ⟨_, rfl, by simp [Table.keys]⟩
  | tuple elements =>
      simp only [Expands, shape] at h
      obtain ⟨items, -, rfl⟩ := h
      exact ⟨_, rfl, by simp [Table.keys]⟩
  | object properties index name =>
      simp only [Expands, shape, ExpandsObject] at h
      split at h
      · exact ⟨_, h, by simp [Table.keys]⟩
      · obtain ⟨schemas, additional, -, -, rfl⟩ := h
        exact isSchema_objectSchema _ _ _
  | union members =>
      simp only [Expands, shape, ExpandsUnion] at h
      split at h
      · obtain ⟨values, -, rfl⟩ := h
        exact ⟨_, rfl, by simp [Table.keys]⟩
      · obtain ⟨schemas, -, rfl⟩ := h
        exact ⟨_, rfl, by simp [Table.keys]⟩
  | intersection members =>
      simp only [Expands, shape] at h
      obtain ⟨schemas, -, rfl⟩ := h
      exact ⟨_, rfl, nodup_keys_foldl_intersectWith schemas (by simp [closedObject, Table.keys])⟩
  | enumeration values name =>
      simp only [Expands, shape] at h
      cases values with
      | nil => exact ⟨_, h, by simp [Table.keys]⟩
      | cons first rest => exact ⟨_, h, by simp [Table.keys]⟩
  | null =>
      simp only [Expands, shape] at h
      exact ⟨_, h, by simp [Table.keys]⟩
  | any =>
      simp only [Expands, shape] at h
      exact ⟨_, h, by simp [Table.keys]⟩
  | undescribed | bare => simp only [Expands, shape] at h

theorem isSchema_of_compile {visited : Visited} {path : List String} {t : TypeId} {s : Json}
    (h : g.compile t path visited = .ok s) : IsSchema s :=
  isSchema_of_expands (expands_of_compile h)

/-! ## What stands at a site -/

theorem getElem?_propertyEntries {properties : List Property} {schemas : List Json} {i : Nat}
    {p : Property} {s : Json} (hp : (participating properties)[i]? = some p)
    (hs : schemas[i]? = some s) :
    (propertyEntries properties schemas)[i]? = some (p.name, p.fragment s) := by
  rw [propertyEntries, List.getElem?_zipWith, hp, hs]

/-- The property that prevails is the one that is read under its name. -/
theorem get?_propertyEntries {properties : List Property} {schemas : List Json} {i : Nat}
    {p : Property} {s : Json} (hp : (participating properties)[i]? = some p)
    (later : ∀ (j : Nat) (q : Property), i < j → (participating properties)[j]? = some q →
      q.name ≠ p.name) (hs : schemas[i]? = some s) :
    Table.get? (Table.ofList (propertyEntries properties schemas)) p.name =
      some (p.fragment s) := by
  refine Table.get?_ofList_eq_some_iff.2 ⟨i, getElem?_propertyEntries hp hs, ?_⟩
  intro j entry lt found
  rw [propertyEntries, List.getElem?_zipWith] at found
  split at found
  · next q s' hq _ =>
      cases found
      exact later j q lt hq
  · cases found

theorem getElem?_of_length_eq {α β : Type} {xs : List α} {ys : List β}
    (length : ys.length = xs.length) {i : Nat} {x : α} (h : xs[i]? = some x) :
    ∃ y, ys[i]? = some y := by
  have bound := (List.getElem?_eq_some_iff.1 h).1
  rw [← length] at bound
  exact ⟨ys[i], List.getElem?_eq_getElem bound⟩

/-- What is read under a name is the schema of the property that prevails under it. -/
theorem prevails_of_get?_propertyEntries {properties : List Property} {schemas : List Json}
    (length : schemas.length = (participating properties).length) {key : String} {v : Json}
    (found : Table.get? (Table.ofList (propertyEntries properties schemas)) key = some v) :
    ∃ (i : Nat) (p : Property) (s : Json), (participating properties)[i]? = some p ∧
      schemas[i]? = some s ∧ Prevails properties p ∧ p.name = key ∧ p.fragment s = v := by
  obtain ⟨i, entry, later⟩ := Table.get?_ofList_eq_some_iff.1 found
  rw [propertyEntries, List.getElem?_zipWith] at entry
  split at entry
  · next p s hp hs =>
      obtain ⟨rfl, rfl⟩ := Prod.mk.inj (Option.some.inj entry)
      refine ⟨i, p, s, hp, hs, ⟨i, hp, fun j q lt hq => ?_⟩, rfl, rfl⟩
      obtain ⟨s', hs'⟩ := getElem?_of_length_eq length hq
      exact later j _ lt (getElem?_propertyEntries hq hs')
  · cases entry

/-- The schema of a property is a table. -/
theorem Property.fragment_eq_obj (p : Property) (s : Json) :
    ∃ members, p.fragment s = .obj members := by
  rw [Property.fragment]
  split
  · exact ⟨_, rfl⟩
  · exact ⟨_, rfl⟩

/-- The object types of frames are those that compilation finds to be expanded. -/
theorem find?_visits_eq_none_iff {start : List String} {frames : List Frame} {t : TypeId} :
    (frames.map (Frame.visit start)).find? (·.type == t) = none ↔ t ∉ entered frames := by
  simp only [List.find?_eq_none, List.mem_map, Frame.visit, entered, beq_iff_eq]
  constructor
  · rintro h ⟨f, hf, rfl⟩
    exact h _ ⟨f, hf, rfl⟩ rfl
  · rintro h visit ⟨f, hf, rfl⟩ same
    exact h ⟨f, hf, same⟩

theorem visits_concat (start : List String) (frames : List Frame) (t : TypeId) (way : Way)
    (exit : Move) :
    List.map (Frame.visit start) (frames ++ [⟨t, way, exit⟩]) =
      enter (frames.map (Frame.visit start)) t (start ++ way.segments) := by
  rw [List.map_append, enter]
  rfl

/-- What stands at the end of a way that goes on by one move. -/
theorem at?_concat {S found : Json} {way : Way} (h : S.at? way.steps = some found) (move : Move) :
    S.at? (Way.steps (way ++ [move])) = found.at? move.steps := by
  rw [Way.steps_concat, Json.at?_append, h, Option.bind_some]

/-- **Every site has been compiled**, and at the end of its way stands its schema, under the
annotations of the property that holds it. -/
theorem Site.at?_compiled {start : List String} {S : Json}
    (compiled : g.compile root start [] = .ok S) {frames : List Frame} {way : Way}
    {notes : Table Json} {t : TypeId} (site : Site g root frames way notes t) :
    ∃ s, g.compile t (start ++ way.segments) (frames.map (Frame.visit start)) = .ok s ∧
      S.at? way.steps = some (annotated notes s) := by
  induction site with
  | root =>
      refine ⟨S,
        by rwa [Way.segments, Way.steps, List.flatMap_nil, List.map_nil, List.append_nil], ?_⟩
      rw [annotated_nil (isSchema_of_compile compiled)]
      rfl
  | @items frames way notes t element site shape ih =>
      obtain ⟨s, parent, found⟩ := ih
      have expands := expands_of_compile parent
      simp only [Expands, shape] at expands
      obtain ⟨items, part, rfl⟩ := expands
      refine ⟨items, by rwa [Way.segments_concat, ← List.append_assoc], ?_⟩
      rw [at?_concat found, Move.steps, Json.at?_cons,
        child?_annotated (isSchema_of_compile parent) notes rfl,
        annotated_nil (isSchema_of_compile part)]
      rfl
  | @item frames way notes t u elements i site shape hu ih =>
      obtain ⟨s, parent, found⟩ := ih
      have expands := expands_of_compile parent
      simp only [Expands, shape] at expands
      obtain ⟨items, ⟨length, each⟩, rfl⟩ := expands
      obtain ⟨s, hs⟩ := getElem?_of_length_eq length hu
      have part := each i u s hu hs
      refine ⟨s, by rwa [Way.segments_concat, ← List.append_assoc], ?_⟩
      rw [at?_concat found, Move.steps, Json.at?_cons,
        child?_annotated (isSchema_of_compile parent) notes rfl,
        annotated_nil (isSchema_of_compile part)]
      simp [Json.at?_cons, hs]
  | @property frames way notes t properties index name p site shape new prevails typed ih =>
      obtain ⟨s, parent, found⟩ := ih
      have expands := expands_of_compile parent
      simp only [Expands, shape, ExpandsObject, find?_visits_eq_none_iff.2 new] at expands
      obtain ⟨schemas, additional, ⟨length, each⟩, -, rfl⟩ := expands
      obtain ⟨i, hp, later⟩ := prevails
      obtain ⟨s, hs⟩ := getElem?_of_length_eq length hp
      have part := each i p s hp hs typed
      have standing := get?_propertyEntries hp later hs
      have nonempty : Table.ofList (propertyEntries properties schemas) ≠ [] := by
        intro empty
        rw [empty] at standing
        cases standing
      refine ⟨s, by rwa [visits_concat, Way.segments_concat, ← List.append_assoc], ?_⟩
      rw [at?_concat found, Move.steps, Json.at?_cons,
        child?_annotated (isSchema_of_compile parent) notes
          (child?_objectSchema_properties _ _ nonempty)]
      rw [Option.bind_some, Json.at?_cons, Json.child?_obj_key, standing, Property.fragment, typed]
      rfl
  | @additional frames way notes t u properties name site shape new ih =>
      obtain ⟨s, parent, found⟩ := ih
      have expands := expands_of_compile parent
      simp only [Expands, shape, ExpandsObject, find?_visits_eq_none_iff.2 new] at expands
      obtain ⟨schemas, additional, -, part, rfl⟩ := expands
      refine ⟨additional, by rwa [visits_concat, Way.segments_concat, ← List.append_assoc], ?_⟩
      rw [at?_concat found, Move.steps, Json.at?_cons,
        child?_annotated (isSchema_of_compile parent) notes
          (child?_objectSchema_additional _ _ _), annotated_nil (isSchema_of_compile part)]
      rfl
  | @branch frames way notes t u members i site shape mixed hu ih =>
      obtain ⟨s, parent, found⟩ := ih
      have expands := expands_of_compile parent
      simp only [Expands, shape, ExpandsUnion, mixed] at expands
      obtain ⟨schemas, ⟨length, each⟩, rfl⟩ := expands
      obtain ⟨s, hs⟩ := getElem?_of_length_eq length hu
      have part := each i u s hu hs
      refine ⟨s, by rwa [Way.segments_concat, ← List.append_assoc], ?_⟩
      rw [at?_concat found, Move.steps, Json.at?_cons,
        child?_annotated (isSchema_of_compile parent) notes rfl,
        annotated_nil (isSchema_of_compile part)]
      have bound := (List.getElem?_eq_some_iff.1 hs).1
      simp [Json.at?_cons, List.getElem?_append_left bound, hs]

end RouteContract.Shape
