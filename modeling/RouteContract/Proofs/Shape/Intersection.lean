import RouteContract.Proofs.Data.Grouping
import RouteContract.Proofs.Shape.Guarded
import RouteContract.Proofs.Shape.Site

/-!
# Intersections

An intersection of object types is one object schema, folded from the schemas of the members. What
the fold reads off a schema is what it requires, what it declares, and what it says about members
that are not declared; each of these is put together by itself (`itemsUnder_intersectWith`,
`get?_membersUnder_intersectWith`, `others?_intersectWith`). An object type that is being expanded
is only referred to, and a reference says none of this. The schema of an intersection therefore
keeps the members that are not being expanded, all of them, at any depth, and nothing of the others
(`Graph.intersection_keeps_new`).
-/

set_option autoImplicit false

namespace RouteContract.Shape

open RouteContract

variable {g : Graph} {visited : Visited} {path : List String}

/-! ## Folding schemas -/

/-- A schema with what a second one says about members that are not declared, unless it says
nothing or refuses them. -/
def putAdditional (done members : Table Json) : Table Json :=
  match Table.get? members "additionalProperties" with
  | none => done
  | some .null => done
  | some (.bool false) => done
  | some additional => Table.put done "additionalProperties" additional

theorem get?_putAdditional {key : String} (other : key ≠ "additionalProperties")
    (done members : Table Json) :
    Table.get? (putAdditional done members) key = Table.get? done key := by
  rw [putAdditional]
  split
  · rfl
  · rfl
  · rfl
  · exact Table.get?_put_of_ne done other _

/-- An intersection takes over what a schema says about other members, its names and its
properties, one after the other. -/
theorem intersectWith_eq (done : Table Json) (schema : Json) :
    intersectWith done schema =
      let members := schema.members?.getD []
      let required := mergeNames (itemsUnder done "required") (itemsUnder members "required")
      let properties :=
        Table.putAll (membersUnder done "properties") (membersUnder members "properties")
      let done := putAdditional done members
      let done := if required.isEmpty then done else Table.put done "required" (.arr required)
      if properties.isEmpty then done else Table.put done "properties" (.obj properties) := rfl

theorem get?_ite_put {c : Bool} {done : Table Json} {key name : String} {value : Json} :
    Table.get? (if c then done else Table.put done name value) key =
      if c = false ∧ name = key then some value else Table.get? done key := by
  cases c <;> simp [Table.get?_put]

theorem get?_intersectWith (done members : Table Json) (key : String) :
    Table.get? (intersectWith done (.obj members)) key =
      let required := mergeNames (itemsUnder done "required") (itemsUnder members "required")
      let properties :=
        Table.putAll (membersUnder done "properties") (membersUnder members "properties")
      if properties.isEmpty = false ∧ "properties" = key then some (.obj properties)
      else if required.isEmpty = false ∧ "required" = key then some (.arr required)
      else Table.get? (putAdditional done members) key := by
  rw [intersectWith_eq]
  dsimp only
  rw [get?_ite_put, get?_ite_put]
  rfl

/-- The first names stay. -/
theorem prefix_mergeNames (names more : List Json) : names <+: mergeNames names more := by
  induction more generalizing names with
  | nil => exact List.prefix_rfl
  | cons name rest ih =>
      refine List.IsPrefix.trans ?_ (ih _)
      dsimp only
      split
      · exact List.prefix_rfl
      · exact List.prefix_append _ _

/-- What an intersection requires. -/
theorem itemsUnder_intersectWith (done members : Table Json) :
    itemsUnder (intersectWith done (.obj members)) "required" =
      mergeNames (itemsUnder done "required") (itemsUnder members "required") := by
  rw [itemsUnder, get?_intersectWith]
  dsimp only
  rw [if_neg (by simp)]
  cases empty : (mergeNames (itemsUnder done "required") (itemsUnder members "required")).isEmpty with
  | false => simp [Json.items?]
  | true =>
      rw [List.isEmpty_iff] at empty
      have none := prefix_mergeNames (itemsUnder done "required") (itemsUnder members "required")
      rw [empty, List.prefix_nil] at none
      rw [if_neg (by simp), get?_putAdditional (by decide), empty]
      exact none

theorem eq_nil_of_putAll {t s : Table Json} (h : Table.putAll t s = []) : t = [] := by
  cases t with
  | nil => rfl
  | cons entry rest =>
      have read := Table.get?_putAll (entry :: rest) s entry.1
      rw [h, Table.get?_nil, eq_comm, Option.or_eq_none_iff, Table.get?_cons_self] at read
      exact nomatch read.2

/-- What an intersection declares: what the second schema does, and what it leaves of the first. -/
theorem membersUnder_intersectWith (done members : Table Json) :
    membersUnder (intersectWith done (.obj members)) "properties" =
      Table.putAll (membersUnder done "properties") (membersUnder members "properties") := by
  rw [membersUnder, get?_intersectWith]
  dsimp only
  cases empty : (Table.putAll (membersUnder done "properties")
      (membersUnder members "properties")).isEmpty with
  | false => simp [Json.members?]
  | true =>
      rw [List.isEmpty_iff] at empty
      rw [if_neg (by simp), if_neg (by simp), get?_putAdditional (by decide), empty]
      exact eq_nil_of_putAll empty

/-- What a schema says about members that are not declared, unless it refuses them. -/
def others? (schema : Table Json) : Option Json :=
  match Table.get? schema "additionalProperties" with
  | none => none
  | some .null => none
  | some (.bool false) => none
  | some additional => some additional

/-- What an intersection says about members that are not declared. -/
theorem get?_additional_intersectWith (done members : Table Json) :
    Table.get? (intersectWith done (.obj members)) "additionalProperties" =
      (others? members).or (Table.get? done "additionalProperties") := by
  rw [get?_intersectWith]
  dsimp only
  rw [if_neg (by simp), if_neg (by simp), putAdditional, others?]
  split
  · rfl
  · rfl
  · rfl
  · rw [Table.get?_put_self, Option.some_or]

/-- Merged names are those of both lists, in the order in which they are seen first. -/
theorem mergeNames_eq (names more : List String) :
    mergeNames (names.eraseDups.map .str) (more.map .str) =
      ((names ++ more).eraseDups).map .str := by
  induction more using List.reverseRecOn with
  | nil => rw [List.append_nil]; rfl
  | append_singleton init last ih =>
      rw [mergeNames] at ih ⊢
      rw [List.map_append, List.foldl_append, ih, ← List.append_assoc, Table.eraseDups_concat]
      have there : (((names ++ init).eraseDups.map Json.str).any
          (Json.numericallyEqual (.str last))) = true ↔ last ∈ names ++ init := by
        rw [List.any_map, List.any_eq_true, ← Table.mem_eraseDups]
        constructor
        · rintro ⟨name, listed, same⟩
          rwa [Json.eq_of_numericallyEqual_str same]
        · exact fun listed => ⟨last, listed, by
            simp [Json.numericallyEqual, Json.equalBy, Json.equalScalars]⟩
      simp only [List.map_cons, List.map_nil, List.foldl_cons, List.foldl_nil, there]
      split
      · rfl
      · rw [List.map_append]
        rfl

/-- A list of names may be merged without its repetitions. -/
theorem eraseDups_append_eraseDups (names more : List String) :
    (names ++ more.eraseDups).eraseDups = (names ++ more).eraseDups := by
  induction more using List.reverseRecOn with
  | nil => rfl
  | append_singleton init last ih =>
      rw [Table.eraseDups_concat, ← List.append_assoc, Table.eraseDups_concat]
      split
      · next there => rw [if_pos (List.mem_append_right _ there), ih]
      · rw [← List.append_assoc, Table.eraseDups_concat, ih]
        simp only [List.mem_append, Table.mem_eraseDups]

/-! ## Members -/

/-- Object types that are conjoined: directly, or through intersections among the members. -/
inductive Conjoins (g : Graph) : List TypeId → List TypeId → Prop
  | nil : Conjoins g [] []
  | object {u : TypeId} {rest us : List TypeId} (isObject : g.isObject u = true)
      (later : Conjoins g rest us) : Conjoins g (u :: rest) (u :: us)
  | intersection {t : TypeId} {members rest us vs : List TypeId}
      (shape : g.shape t = .intersection members) (inner : Conjoins g members us)
      (later : Conjoins g rest vs) : Conjoins g (t :: rest) (us ++ vs)

/-- The property that an object type has under a name: the last one that takes part. -/
def Graph.declared? (g : Graph) (u : TypeId) (name : String) : Option Property :=
  match g.shape u with
  | .object properties _ _ => (participating properties).reverse.find? (·.name == name)
  | _ => none

/-- The type of the members that an object type does not declare. -/
def Graph.index? (g : Graph) (u : TypeId) : Option TypeId :=
  match g.shape u with
  | .object _ index _ => index
  | _ => none

/-- The names that an object type requires. -/
def Graph.required (g : Graph) (u : TypeId) : List String :=
  match g.shape u with
  | .object properties _ _ => requiredNames properties
  | _ => []

/-- The last type of a list that has something, and what it has. -/
def last? {α : Type} (has : TypeId → Option α) (us : List TypeId) : Option (TypeId × α) :=
  us.reverse.findSome? fun u => (has u).map (u, ·)

theorem last?_append {α : Type} (has : TypeId → Option α) (us vs : List TypeId) :
    last? has (us ++ vs) = (last? has vs).or (last? has us) := by
  rw [last?, List.reverse_append, List.findSome?_append]
  rfl

/-- The schema that a property of an object type has, inside that object type. -/
def PropertySchema (g : Graph) (visited : Visited) (path : List String) (u : TypeId) (p : Property)
    (v : Json) : Prop :=
  if p.isSelfTyped then v = .obj p.annotations
  else ∃ s, g.compile p.type (path ++ ["properties", p.name]) (enter visited u path) = .ok s ∧
    v = annotated p.annotations s

/-- The schema of the members that an object type does not declare, inside that object type. -/
def IndexSchema (g : Graph) (visited : Visited) (path : List String) (u value : TypeId)
    (s : Json) : Prop :=
  g.compile value (path ++ ["additionalProperties"]) (enter visited u path) = .ok s

/-- A schema says what a list of object types says. -/
structure States (g : Graph) (visited : Visited) (path : List String) (us : List TypeId)
    (schema : Table Json) : Prop where
  required : ∃ names, itemsUnder schema "required" = names.map .str ∧ ∀ earlier,
    (earlier ++ names).eraseDups = (earlier ++ us.flatMap g.required).eraseDups
  distinct : (Table.keys (membersUnder schema "properties")).Nodup
  declared : ∀ name, Option.Rel (fun last v => PropertySchema g visited path last.1 last.2 v)
    (last? (g.declared? · name) us) (Table.get? (membersUnder schema "properties") name)
  others : Option.Rel (fun last s => IndexSchema g visited path last.1 last.2 s)
    (last? g.index? us) (others? schema)

/-- A schema that members are folded into says what those do. -/
structure Gathers (g : Graph) (visited : Visited) (path : List String) (us : List TypeId)
    (schema : Table Json) : Prop where
  stated : States g visited path us schema
  type : Table.get? schema "type" = some (.str "object")
  required : itemsUnder schema "required" = ((us.flatMap g.required).eraseDups).map .str
  additional : Table.get? schema "additionalProperties" =
    some ((others? schema).getD (.bool false))

variable {us vs members : List TypeId} {schema done : Table Json}

theorem rel_or {α β : Type} {r : α → β → Prop} {a a' : Option α} {b b' : Option β}
    (first : Option.Rel r a b) (second : Option.Rel r a' b') :
    Option.Rel r (a.or a') (b.or b') := by
  cases first with
  | some h => exact .some h
  | none => exact second

theorem others?_eq_some {a : Json} (h : others? schema = some a) : a ≠ .null ∧ a ≠ .bool false := by
  rw [others?] at h
  split at h
  · cases h
  · cases h
  · cases h
  · next notNull notFalse _ =>
      cases h
      exact ⟨notNull, notFalse⟩

theorem others?_of_get? {a : Json} (h : Table.get? schema "additionalProperties" = some a)
    (notNull : a ≠ .null) (notFalse : a ≠ .bool false) : others? schema = some a := by
  rw [others?, h]
  split
  · next impossible => cases impossible
  · next same => cases same; exact absurd rfl notNull
  · next same => cases same; exact absurd rfl notFalse
  · next same => exact same.symm

/-- What an intersection says about members that are not declared is what the last schema does that
says anything. -/
theorem others?_intersectWith (done members : Table Json) :
    others? (intersectWith done (.obj members)) = (others? members).or (others? done) := by
  have read := get?_additional_intersectWith done members
  cases said : others? members with
  | none =>
      rw [said, Option.none_or] at read
      rw [others?, read, Option.none_or, others?]
  | some a =>
      rw [said, Option.some_or] at read
      obtain ⟨notNull, notFalse⟩ := others?_eq_some said
      rw [others?_of_get? read notNull notFalse, Option.some_or]

theorem gathers_closedObject : Gathers g visited path [] closedObject := by
  refine ⟨⟨⟨[], rfl, fun _ => rfl⟩, List.nodup_nil, fun _ => .none, .none⟩, rfl, rfl, rfl⟩

/-- **Folding a schema in** keeps what was said, and adds what the schema says. -/
theorem Gathers.intersectWith (gathers : Gathers g visited path us done)
    (stated : States g visited path vs schema) :
    Gathers g visited path (us ++ vs) (Shape.intersectWith done (.obj schema)) := by
  have required : itemsUnder (Shape.intersectWith done (.obj schema)) "required" =
      (((us ++ vs).flatMap g.required).eraseDups).map .str := by
    obtain ⟨names, named, merged⟩ := stated.required
    rw [itemsUnder_intersectWith, gathers.required, named, mergeNames_eq, merged,
      List.flatMap_append]
  refine ⟨⟨⟨_, required, fun earlier => eraseDups_append_eraseDups _ _⟩, ?_, fun name => ?_, ?_⟩,
    ?_, required, ?_⟩
  · rw [membersUnder_intersectWith]
    exact Table.nodup_keys_putAll gathers.stated.distinct _
  · rw [membersUnder_intersectWith, Table.get?_putAll, Table.get?_reverse stated.distinct,
      last?_append]
    exact rel_or (stated.declared name) (gathers.stated.declared name)
  · rw [others?_intersectWith, last?_append]
    exact rel_or stated.others gathers.stated.others
  · rw [get?_intersectWith]
    dsimp only
    rw [if_neg (by simp), if_neg (by simp), get?_putAdditional (by decide), gathers.type]
  · rw [get?_additional_intersectWith, others?_intersectWith, gathers.additional]
    cases others? schema <;> rfl

/-! ## Members and what they say -/

/-- A reference says nothing. -/
theorem states_reference (ref : Json) : States g visited path [] [("$ref", ref)] :=
  ⟨⟨[], rfl, fun _ => rfl⟩, List.nodup_nil, fun _ => .none, .none⟩

theorem objectSchema_parts {additional : Json} {required : List String} {properties : Table Json}
    (form : objectSchema additional required properties = .obj schema) :
    itemsUnder schema "required" = required.map .str ∧
      membersUnder schema "properties" = properties ∧
      Table.get? schema "additionalProperties" = some additional := by
  rw [objectSchema, Json.obj.injEq] at form
  subst form
  cases required <;> cases properties <;> exact ⟨rfl, rfl, rfl⟩

theorem last?_singleton {α : Type} (has : TypeId → Option α) (u : TypeId) :
    last? has [u] = (has u).map (u, ·) := by
  rw [last?, List.reverse_singleton, List.findSome?_singleton]

/-- The property that an object type has under a name prevails over the others. -/
theorem prevails_of_declared? {u : TypeId} {properties : List Property} {index : Option TypeId}
    {label name : String} {p : Property} (shape : g.shape u = .object properties index label)
    (found : g.declared? u name = some p) :
    p.name = name ∧ ∃ i, (participating properties)[i]? = some p ∧
      ∀ (j : Nat) (q : Property), i < j → (participating properties)[j]? = some q →
        q.name ≠ p.name := by
  rw [Graph.declared?, shape] at found
  obtain ⟨named, later, earlier, split, others⟩ := List.find?_eq_some_iff_append.1 found
  have named : p.name = name := beq_iff_eq.1 named
  have order : participating properties = earlier.reverse ++ p :: later.reverse := by
    rw [← List.reverse_reverse (participating properties), split]
    simp
  refine ⟨named, earlier.reverse.length, by rw [order]; simp, fun j q lt hq same => ?_⟩
  rw [order, List.getElem?_append_right (Nat.le_of_lt lt)] at hq
  obtain ⟨k, further⟩ : ∃ k, j - earlier.reverse.length = k + 1 :=
    ⟨j - earlier.reverse.length - 1, by omega⟩
  rw [further, List.getElem?_cons_succ] at hq
  have differs := others q (List.mem_reverse.1 (List.mem_of_getElem? hq))
  simp [same, named] at differs

/-- An object schema states what the object type does. -/
theorem states_object {u : TypeId} {properties : List Property} {index : Option TypeId}
    {label : String} (shape : g.shape u = .object properties index label) {schemas : List Json}
    {additional : Json}
    (declared : EachProperty (fun path' t s => g.compile t path' (enter visited u path) = .ok s)
      path properties schemas)
    (indexed : IndexPart (fun path' t s => g.compile t path' (enter visited u path) = .ok s)
      path index additional)
    (form : objectSchema additional (requiredNames properties)
      (Table.ofList (propertyEntries properties schemas)) = .obj schema) :
    States g visited path [u] schema := by
  obtain ⟨required, properties_, others⟩ := objectSchema_parts form
  refine ⟨⟨_, required, fun earlier => ?_⟩, ?_, fun name => ?_, ?_⟩
  · simp [Graph.required, shape]
  · rw [properties_]
    exact Table.nodup_keys_ofList _
  · rw [properties_, last?_singleton]
    cases found : g.declared? u name with
    | some p =>
        obtain ⟨rfl, i, hp, later⟩ := prevails_of_declared? shape found
        obtain ⟨s, hs⟩ := getElem?_of_length_eq declared.1 hp
        rw [get?_propertyEntries hp later hs]
        refine .some ?_
        rw [PropertySchema, Property.fragment]
        cases typed : p.isSelfTyped with
        | true => rfl
        | false => exact ⟨s, declared.2 i p s hp hs typed, rfl⟩
    | none =>
        cases read : Table.get? (Table.ofList (propertyEntries properties schemas)) name with
        | none => exact .none
        | some v =>
            obtain ⟨i, p, s, hp, -, -, rfl, -⟩ := prevails_of_get?_propertyEntries declared.1 read
            rw [Graph.declared?, shape, List.find?_eq_none] at found
            have differs := found p (List.mem_reverse.2 (List.mem_of_getElem? hp))
            exact absurd (beq_self_eq_true p.name) differs
  · rw [last?_singleton, Graph.index?, shape]
    cases index with
    | none =>
        rw [IndexPart] at indexed
        rw [others?, others, indexed]
        exact .none
    | some value =>
        obtain ⟨members, same, -⟩ := isSchema_of_compile indexed
        rw [others?_of_get? others (by simp [same]) (by simp [same])]
        exact .some indexed

/-! ## What intersections keep -/

/-- The types of a list that are not being expanded. -/
def unentered (visited : Visited) (us : List TypeId) : List TypeId :=
  us.filter fun u => !visited.any (·.type == u)

/-- An object type that is compiled states what it says, unless it is being expanded. -/
theorem states_of_compile {u : TypeId} (isObject : g.isObject u = true)
    (compiled : g.compile u path visited = .ok (.obj schema)) :
    States g visited path (unentered visited [u]) schema := by
  have expands := expands_of_compile compiled
  rw [Graph.isObject] at isObject
  cases shape : g.shape u with
  | object properties index label =>
      simp only [Expands, shape, ExpandsObject] at expands
      cases entered : visited.find? (·.type == u) with
      | some entry =>
          have again : visited.any (·.type == u) = true := by
            rw [← List.isSome_find?, entered]
            rfl
          simp only [entered, Json.obj.injEq] at expands
          rw [unentered, List.filter_cons, again, expands]
          exact states_reference _
      | none =>
          have new : visited.any (·.type == u) = false := by
            rw [← List.isSome_find?, entered]
            rfl
          simp only [entered] at expands
          obtain ⟨schemas, additional, declared, indexed, form⟩ := expands
          rw [unentered, List.filter_cons, new]
          exact states_object shape declared indexed form.symm
  | _ => simp [shape] at isObject

theorem EachPart.forall₂ {sub : List String → TypeId → Json → Prop} {parts : List TypeId}
    {schemas : List Json} (h : EachPart sub (fun _ => path) parts schemas) :
    List.Forall₂ (sub path) parts schemas := by
  refine List.forall₂_iff_get.2 ⟨h.1.symm, fun i lt lt' => ?_⟩
  exact h.2 i _ _ (List.getElem?_eq_getElem lt) (List.getElem?_eq_getElem lt')

/-- **Folding members keeps those that are not being expanded.** -/
theorem Gathers.foldl (conjoined : Conjoins g members vs) {schemas : List Json}
    (gathers : Gathers g visited path us done)
    (each : List.Forall₂ (fun m s => g.compile m path visited = .ok s) members schemas) :
    Gathers g visited path (us ++ unentered visited vs) (schemas.foldl Shape.intersectWith done) := by
  induction conjoined generalizing schemas us done with
  | nil =>
      cases each
      simpa [unentered] using gathers
  | @object u rest vs isObject later ih =>
      obtain ⟨s, ss, compiled, others, rfl⟩ := List.forall₂_cons_left_iff.1 each
      obtain ⟨schema, rfl, -⟩ := isSchema_of_compile compiled
      have next := ih (gathers.intersectWith (states_of_compile isObject compiled)) others
      rw [List.append_assoc, unentered, unentered, ← List.filter_append] at next
      exact next
  | @intersection t inside rest vs ws shape inner later ihInner ih =>
      obtain ⟨s, ss, compiled, others, rfl⟩ := List.forall₂_cons_left_iff.1 each
      have expands := expands_of_compile compiled
      simp only [Expands, shape] at expands
      obtain ⟨schemas, parts, rfl⟩ := expands
      -- The members of an intersection are gathered from nothing, and folded in as one schema.
      have gathered := ihInner gathers_closedObject (EachPart.forall₂ parts)
      have next := ih (gathers.intersectWith gathered.stated) others
      rw [List.nil_append, List.append_assoc, unentered, unentered, ← List.filter_append] at next
      exact next

/-- **An intersection keeps the members that are not being expanded**, at every path and inside every
list of object types. Under each name it has the schema that was compiled for the property of the
last such member that declares it; it requires the names that any of them requires, each once and
in the order in which they are seen first; and it allows other members as the last of them does that
allows any. Of a member that is being expanded nothing is left: a reference to it is compiled, and
the fold does not look at references. -/
theorem Graph.intersection_keeps_new {t : TypeId} (shape : g.shape t = .intersection members)
    (conjoined : Conjoins g members us) (converts : ∀ m ∈ members, g.Converts visited m)
    (path : List String) :
    ∃ S, g.compile t path visited = .ok (.obj S) ∧
      Table.get? S "type" = some (.str "object") ∧
      (Table.keys (membersUnder S "properties")).Nodup ∧
      (∀ name, Option.Rel (fun last v => PropertySchema g visited path last.1 last.2 v)
        (last? (g.declared? · name) (unentered visited us))
        (Table.get? (membersUnder S "properties") name)) ∧
      itemsUnder S "required" =
        (((unentered visited us).flatMap g.required).eraseDups).map .str ∧
      ∃ others,
        Option.Rel (fun last s => IndexSchema g visited path last.1 last.2 s)
          (last? g.index? (unentered visited us)) others ∧
        Table.get? S "additionalProperties" = some (others.getD (.bool false)) := by
  have parts : g.parts t = members := by rw [Graph.parts, shape]
  obtain ⟨s, compiled⟩ := compile_ok_of_parts (by rw [Graph.isObject, shape])
    (by rw [Graph.refusal?, shape]) (parts.symm ▸ converts) path
  have expands := expands_of_compile compiled
  simp only [Expands, shape] at expands
  obtain ⟨schemas, each, rfl⟩ := expands
  have gathered := gathers_closedObject.foldl conjoined (EachPart.forall₂ each)
  rw [List.nil_append] at gathered
  exact ⟨_, compiled, gathered.type, gathered.stated.distinct, gathered.stated.declared,
    gathered.required, _, gathered.stated.others, gathered.additional⟩

/-- A node together with what it has beyond one: a number, and then labels. -/
def labelledGraph : Graph :=
  ⟨#[⟨.intersection [1, 2], none⟩, ⟨.object [⟨"id", 5, false, []⟩] none "Node", none⟩,
    ⟨.intersection [3, 4], none⟩, ⟨.object [⟨"extra", 6, false, []⟩] none "Extra", none⟩,
    ⟨.object [⟨"label", 5, true, []⟩] (some 5) "Labels", none⟩, ⟨.scalar .string, none⟩,
    ⟨.scalar .number, none⟩]⟩

/-- **A node that is being expanded is lost** where it is joined with what it has beyond one. -/
theorem labelledGraph_keeps_new :
    ∃ S, labelledGraph.compile 0 [] [⟨1, ["definitions", "Node"]⟩] = .ok (.obj S) ∧
      Table.get? (membersUnder S "properties") "id" = none ∧
      Table.has (membersUnder S "properties") "extra" = true ∧
      itemsUnder S "required" = [.str "extra"] := by
  have reference : labelledGraph.compile 1 [] [⟨1, ["definitions", "Node"]⟩] =
      .ok (.obj [("$ref", .str "#/definitions/Node")]) := by cbv
  have extra : labelledGraph.compile 3 [] [⟨1, ["definitions", "Node"]⟩] =
      .ok (.obj [("type", .str "object"), ("additionalProperties", .bool false),
        ("required", .arr [.str "extra"]),
        ("properties", .obj [("extra", .obj [("type", .str "number")])])]) := by cbv
  have labels : labelledGraph.compile 4 [] [⟨1, ["definitions", "Node"]⟩] =
      .ok (.obj [("type", .str "object"), ("additionalProperties", .obj [("type", .str "string")]),
        ("properties", .obj [("label", .obj [("type", .str "string")])])]) := by cbv
  have converts : ∀ m ∈ [1, 2], labelledGraph.Converts [⟨1, ["definitions", "Node"]⟩] m := by
    simp only [List.mem_cons, List.not_mem_nil, or_false, forall_eq_or_imp, forall_eq]
    refine ⟨⟨_, _, reference⟩, [], compile_ok_of_parts rfl rfl ?_ []⟩
    rintro m (_ | ⟨_, _ | ⟨_, ⟨⟩⟩⟩)
    · exact ⟨_, _, extra⟩
    · exact ⟨_, _, labels⟩
  have conjoined : Conjoins labelledGraph [1, 2] [1, 3, 4] :=
    .object rfl (.intersection rfl (.object rfl (.object rfl .nil)) .nil)
  obtain ⟨S, compiled, -, -, declared, required, -⟩ :=
    labelledGraph.intersection_keeps_new (t := 0) rfl conjoined converts []
  refine ⟨S, compiled, ?_, ?_, required⟩
  · have lost := declared "id"
    generalize Table.get? (membersUnder S "properties") "id" = found at lost ⊢
    cases lost
    rfl
  · have kept := declared "extra"
    rw [Table.has]
    generalize Table.get? (membersUnder S "properties") "extra" = found at kept ⊢
    cases kept
    rfl

end RouteContract.Shape
