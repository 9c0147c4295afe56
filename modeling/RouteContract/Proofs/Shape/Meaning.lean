import RouteContract.Proofs.Shape.LiteralUnion
import RouteContract.Proofs.Shape.Reach

/-!
# What a type means

Which values inhabit a type is said on the type graph itself, without schemas (`Inhabits`). The
graphs for which this is compared with compiled schemas are the plain ones: every cycle passes
through an object type, properties carry no annotations, and literals are of the kind that they are
declared with (`Graph.Plain`).
-/

set_option autoImplicit false

namespace RouteContract.Shape

open RouteContract

/-! ## Values of a type -/

/-- The names that an object type declares. -/
def declaredNames (properties : List Property) : List String := properties.map (·.name)

/-- The values that inhabit a type. A tuple constrains the positions that both the value and the
type have, and an enumeration without values constrains nothing. -/
inductive Inhabits (g : Graph) : TypeId → Json → Prop where
  | scalar {t : TypeId} {kind : ScalarKind} {v : Json} :
      g.shape t = .scalar kind → kind.admits v = true → Inhabits g t v
  | literal {t : TypeId} {kind : ScalarKind} {value v : Json} :
      g.shape t = .literal kind value → Json.equal value v = true → Inhabits g t v
  | array {t element : TypeId} {items : List Json} :
      g.shape t = .array element → (∀ item ∈ items, Inhabits g element item) →
      Inhabits g t (.arr items)
  | tuple {t : TypeId} {elements : List TypeId} {items : List Json} :
      g.shape t = .tuple elements →
      (∀ (i : Nat) (u : TypeId) (item : Json), elements[i]? = some u → items[i]? = some item →
        Inhabits g u item) →
      Inhabits g t (.arr items)
  | object {t : TypeId} {properties : List Property} {index : Option TypeId} {name : String}
      {members : List (String × Json)} :
      g.shape t = .object properties index name →
      (∀ p ∈ properties, p.isOptional = false → Table.has members p.name = true) →
      (∀ p ∈ properties, ∀ w, Table.get? members p.name = some w → Inhabits g p.type w) →
      (∀ entry ∈ members, entry.1 ∉ declaredNames properties → index.isSome = true) →
      (∀ entry ∈ members, entry.1 ∉ declaredNames properties → ∀ u, index = some u →
        Inhabits g u entry.2) →
      Inhabits g t (.obj members)
  | union {t m : TypeId} {members : List TypeId} {v : Json} :
      g.shape t = .union members → m ∈ members → Inhabits g m v → Inhabits g t v
  | enumeration {t : TypeId} {values : List Json} {name : String} {v : Json} :
      g.shape t = .enumeration values name →
      (values = [] ∨ ∃ value ∈ values, Json.equal value v = true) → Inhabits g t v
  | null {t : TypeId} : g.shape t = .null → Inhabits g t .null
  | any {t : TypeId} {v : Json} : g.shape t = .any → Inhabits g t v

/-- What a type asks of a value, the inhabitants of its parts being given. -/
def Asks (g : Graph) (sub : TypeId → Json → Prop) (t : TypeId) (v : Json) : Prop :=
  match g.shape t with
  | .scalar kind => kind.admits v = true
  | .literal _ value => Json.equal value v = true
  | .array element => ∃ items, v = .arr items ∧ ∀ item ∈ items, sub element item
  | .tuple elements =>
      ∃ items, v = .arr items ∧
        ∀ (i : Nat) (u : TypeId) (item : Json), elements[i]? = some u → items[i]? = some item →
          sub u item
  | .object properties index _ =>
      ∃ members, v = .obj members ∧
        (∀ p ∈ properties, p.isOptional = false → Table.has members p.name = true) ∧
        (∀ p ∈ properties, ∀ w, Table.get? members p.name = some w → sub p.type w) ∧
        (∀ entry ∈ members, entry.1 ∉ declaredNames properties → index.isSome = true) ∧
        ∀ entry ∈ members, entry.1 ∉ declaredNames properties → ∀ u, index = some u →
          sub u entry.2
  | .union members => ∃ m ∈ members, sub m v
  | .enumeration values _ => values = [] ∨ ∃ value ∈ values, Json.equal value v = true
  | .null => v = .null
  | .any => True
  | .intersection _ | .undescribed _ | .bare => False

/-- **The values that inhabit a type are those that it asks for.** -/
theorem inhabits_iff {g : Graph} {t : TypeId} {v : Json} :
    Inhabits g t v ↔ Asks g (Inhabits g) t v := by
  constructor
  · intro h
    rw [Asks]
    cases h with
    | scalar shape admitted => rwa [shape]
    | literal shape same => rwa [shape]
    | array shape each =>
        rw [shape]
        exact ⟨_, rfl, each⟩
    | tuple shape each =>
        rw [shape]
        exact ⟨_, rfl, each⟩
    | object shape required declared closed others =>
        rw [shape]
        exact ⟨_, rfl, required, declared, closed, others⟩
    | union shape member inner =>
        rw [shape]
        exact ⟨_, member, inner⟩
    | enumeration shape listed => rwa [shape]
    | null shape => rw [shape]
    | any shape => rw [shape]; trivial
  · intro h
    rw [Asks] at h
    cases shape : g.shape t with
    | scalar kind =>
        rw [shape] at h
        exact .scalar shape h
    | literal kind value =>
        rw [shape] at h
        exact .literal shape h
    | array element =>
        rw [shape] at h
        obtain ⟨items, rfl, each⟩ := h
        exact .array shape each
    | tuple elements =>
        rw [shape] at h
        obtain ⟨items, rfl, each⟩ := h
        exact .tuple shape each
    | object properties index name =>
        rw [shape] at h
        obtain ⟨members, rfl, required, declared, closed, others⟩ := h
        exact .object shape required declared closed others
    | union members =>
        rw [shape] at h
        obtain ⟨m, member, inner⟩ := h
        exact .union shape member inner
    | enumeration values name =>
        rw [shape] at h
        exact .enumeration shape h
    | null =>
        rw [shape] at h
        exact h ▸ .null shape
    | any => exact .any shape
    | intersection members | undescribed name | bare =>
        rw [shape] at h
        exact h.elim

/-! ## Plain graphs -/

/-- What a plain graph asks of a type. -/
def Graph.PlainAt (g : Graph) (t : TypeId) : Prop :=
  match g.shape t with
  | .scalar _ | .array _ | .tuple _ | .union _ | .null | .any => True
  | .literal kind value => kind.admits value = true
  | .object properties _ _ =>
      (declaredNames properties).Nodup ∧
        ∀ p ∈ properties, '%' ∉ p.name.toList ∧ p.annotations = []
  | .enumeration values _ =>
      (∀ value ∈ values, ScalarKind.string.admits value = true) ∨
        ∀ value ∈ values, ScalarKind.number.admits value = true
  | .intersection _ | .undescribed _ | .bare => False

/-- A step from a type that is no object type to one of its parts. -/
def Graph.BareStep (g : Graph) (t u : TypeId) : Prop := g.isObject t = false ∧ u ∈ g.parts t

/-- A graph is plain below a type when all types there are, and every cycle among them passes
through an object type. -/
structure Graph.Plain (g : Graph) (root : TypeId) : Prop where
  plainAt : ∀ t, g.Reaches root t → g.PlainAt t
  guarded : ∀ t, g.Reaches root t → ¬ Relation.TransGen g.BareStep t t

/-- Where ranks fall along every step that does not start at an object type, no such steps lead
back. -/
theorem Graph.not_transGen_of_rank {g : Graph} (known : TypeId → Prop) (rank : TypeId → Nat)
    (closed : ∀ t, known t → ∀ u ∈ g.parts t, known u)
    (falls : ∀ t u, known t → g.BareStep t u → rank u < rank t) {t : TypeId} (start : known t) :
    ¬ Relation.TransGen g.BareStep t t := by
  intro cycle
  have descends {u : TypeId} (path : Relation.TransGen g.BareStep t u) :
      known u ∧ rank u < rank t := by
    induction path with
    | single step => exact ⟨closed t start _ step.2, falls t _ start step⟩
    | tail _ step ih =>
        exact ⟨closed _ ih.1 _ step.2, Nat.lt_trans (falls _ _ ih.1 step) ih.2⟩
  exact Nat.lt_irrefl _ (descends cycle).2

/-- What is closed under parts holds of all types that are reached. -/
theorem Graph.Reaches.known {g : Graph} {root : TypeId} {known : TypeId → Prop} (start : known root)
    (closed : ∀ t, known t → ∀ u ∈ g.parts t, known u) {t : TypeId} (h : g.Reaches root t) :
    known t := by
  induction h with
  | refl => exact start
  | tail _ part ih => exact closed _ ih _ part

/-- A graph is plain when its types are and their ranks fall along every step that does not start at
an object type. -/
theorem Graph.plain_of_rank {g : Graph} {root : TypeId} (known : TypeId → Prop)
    (rank : TypeId → Nat) (start : known root) (plainAt : ∀ t, known t → g.PlainAt t)
    (closed : ∀ t, known t → ∀ u ∈ g.parts t, known u)
    (falls : ∀ t u, known t → g.BareStep t u → rank u < rank t) : g.Plain root :=
  ⟨fun t reached => plainAt t (reached.known start closed), fun _ reached =>
    Graph.not_transGen_of_rank known rank closed falls (reached.known start closed)⟩

namespace Graph.Plain

variable {g : Graph} {root : TypeId}

theorem not_intersection (plain : g.Plain root) {t : TypeId} (reached : g.Reaches root t)
    (members : List TypeId) : g.shape t ≠ .intersection members := by
  intro shape
  have h := plain.plainAt t reached
  rwa [Graph.PlainAt, shape] at h

theorem object (plain : g.Plain root) {t : TypeId} (reached : g.Reaches root t)
    {properties : List Property} {index : Option TypeId} {name : String}
    (shape : g.shape t = .object properties index name) :
    (declaredNames properties).Nodup ∧
      ∀ p ∈ properties, '%' ∉ p.name.toList ∧ p.annotations = [] := by
  have h := plain.plainAt t reached
  rwa [Graph.PlainAt, shape] at h

theorem literal (plain : g.Plain root) {t : TypeId} (reached : g.Reaches root t)
    {kind : ScalarKind} {value : Json} (shape : g.shape t = .literal kind value) :
    kind.admits value = true := by
  have h := plain.plainAt t reached
  rwa [Graph.PlainAt, shape] at h

end Graph.Plain

/-! ## Simple graphs -/

/-- What a simple graph asks of a type: no intersection, no annotations, names that differ within an
object type, and literal values that are not made of others. -/
def Graph.SimpleAt (g : Graph) (t : TypeId) : Prop :=
  match g.shape t with
  | .literal _ value => isAtom value = true
  | .enumeration values _ => ∀ value ∈ values, isAtom value = true
  | .object properties _ _ =>
      (declaredNames properties).Nodup ∧ ∀ p ∈ properties, p.annotations = []
  | .intersection _ => False
  | _ => True

/-- A graph is simple below a type when all types there are. -/
def Graph.Simple (g : Graph) (root : TypeId) : Prop := ∀ t, g.Reaches root t → g.SimpleAt t

theorem isAtom_of_admits {kind : ScalarKind} {value : Json} (h : kind.admits value = true) :
    isAtom value = true := by
  cases value with
  | arr items | obj members => cases kind <;> cases h
  | null | bool b | int i | float x | str s => rfl

/-- Plain graphs are simple. -/
theorem Graph.Plain.simple {g : Graph} {root : TypeId} (plain : g.Plain root) : g.Simple root := by
  intro t reached
  have h := plain.plainAt t reached
  rw [Graph.PlainAt] at h
  rw [Graph.SimpleAt]
  cases shape : g.shape t with
  | literal kind value =>
      rw [shape] at h
      exact isAtom_of_admits h
  | enumeration values name =>
      rw [shape] at h
      rcases h with h | h
      · exact fun value listed => isAtom_of_admits (h value listed)
      · exact fun value listed => isAtom_of_admits (h value listed)
  | object properties index name =>
      rw [shape] at h
      exact ⟨h.1, fun p member => (h.2 p member).2⟩
  | intersection members =>
      rw [shape] at h
      exact h
  | scalar | array | tuple | union | null | any | undescribed | bare => trivial

namespace Graph.Simple

variable {g : Graph} {root t : TypeId}

theorem not_intersection (simple : g.Simple root) (reached : g.Reaches root t)
    (members : List TypeId) : g.shape t ≠ .intersection members := by
  intro shape
  have h := simple t reached
  rwa [Graph.SimpleAt, shape] at h

theorem object (simple : g.Simple root) (reached : g.Reaches root t) {properties : List Property}
    {index : Option TypeId} {name : String} (shape : g.shape t = .object properties index name) :
    (declaredNames properties).Nodup ∧ ∀ p ∈ properties, p.annotations = [] := by
  have h := simple t reached
  rwa [Graph.SimpleAt, shape] at h

end Graph.Simple

/-! ## Properties without annotations -/

section Bare

variable {properties : List Property} {p : Property}

theorem isIgnored_of_bare (bare : p.annotations = []) : p.isIgnored = false := by
  rw [Property.isIgnored, bare]
  rfl

theorem isSelfTyped_of_bare (bare : p.annotations = []) : p.isSelfTyped = false := by
  rw [Property.isSelfTyped, bare]
  rfl

/-- Properties without annotations all take part. -/
theorem participating_eq_self (bare : ∀ p ∈ properties, p.annotations = []) :
    participating properties = properties :=
  List.filter_eq_self.2 fun p member => by rw [isIgnored_of_bare (bare p member)]; rfl

theorem name_ne_of_nodup (distinct : (declaredNames properties).Nodup) {i j : Nat} {q : Property}
    (lt : i < j) (found : properties[i]? = some p) (later : properties[j]? = some q) :
    q.name ≠ p.name := by
  intro same
  have bound := (List.getElem?_eq_some_iff.1 later).1
  refine List.nodup_iff_getElem?_ne_getElem?.1 distinct i j lt (by simpa [declaredNames]) ?_
  rw [declaredNames, List.getElem?_map, List.getElem?_map, found, later, Option.map_some,
    Option.map_some, same]

/-- Under distinct names every property prevails that takes part. -/
theorem prevails_of_nodup (distinct : (declaredNames properties).Nodup) (member : p ∈ properties)
    (kept : p.isIgnored = false) : Prevails properties p := by
  have part : p ∈ participating properties := List.mem_filter.2 ⟨member, by rw [kept]; rfl⟩
  have distinct' : (declaredNames (participating properties)).Nodup :=
    distinct.sublist (List.filter_sublist.map _)
  obtain ⟨i, found⟩ := List.mem_iff_getElem?.1 part
  exact ⟨i, found, fun j q lt later => name_ne_of_nodup distinct' lt found later⟩

theorem eq_of_name_eq (distinct : (declaredNames properties).Nodup) {q : Property}
    (hp : p ∈ properties) (hq : q ∈ properties) (same : p.name = q.name) : p = q :=
  List.inj_on_of_nodup_map distinct hp hq same

/-- The schemas of properties under their names, when the names are distinct and nothing is
annotated. -/
theorem mem_propertyTable_iff (bare : ∀ p ∈ properties, p.annotations = [])
    (distinct : (declaredNames properties).Nodup) {schemas : List Json}
    (length : schemas.length = properties.length) {entry : String × Json} :
    entry ∈ Table.ofList (propertyEntries properties schemas) ↔
      ∃ (i : Nat) (p : Property) (s : Json), properties[i]? = some p ∧ schemas[i]? = some s ∧
        entry = (p.name, p.fragment s) := by
  have all := participating_eq_self bare
  obtain ⟨name, v⟩ := entry
  rw [← Table.get?_eq_some_iff_mem (Table.nodup_keys_ofList _)]
  constructor
  · intro found
    obtain ⟨i, p, s, hp, hs, -, rfl, rfl⟩ :=
      prevails_of_get?_propertyEntries (by rwa [all]) found
    rw [all] at hp
    exact ⟨i, p, s, hp, hs, rfl⟩
  · rintro ⟨i, p, s, hp, hs, same⟩
    obtain ⟨rfl, rfl⟩ := Prod.mk.inj same
    refine get?_propertyEntries (by rwa [all]) (fun j q lt hq => ?_) hs
    rw [all] at hq
    exact name_ne_of_nodup distinct lt hp hq

/-- A name is in the table of the schemas exactly when it is declared. -/
theorem has_propertyTable_iff (bare : ∀ p ∈ properties, p.annotations = [])
    (distinct : (declaredNames properties).Nodup) {schemas : List Json}
    (length : schemas.length = properties.length) (name : String) :
    Table.has (Table.ofList (propertyEntries properties schemas)) name = true ↔
      name ∈ declaredNames properties := by
  rw [Table.has_iff_mem_keys, Table.keys, List.mem_map, declaredNames, List.mem_map]
  constructor
  · rintro ⟨entry, member, rfl⟩
    obtain ⟨i, p, s, hp, -, rfl⟩ := (mem_propertyTable_iff bare distinct length).1 member
    exact ⟨p, List.mem_of_getElem? hp, rfl⟩
  · rintro ⟨p, member, rfl⟩
    obtain ⟨i, hp⟩ := List.mem_iff_getElem?.1 member
    obtain ⟨s, hs⟩ := getElem?_of_length_eq length hp
    exact ⟨_, (mem_propertyTable_iff bare distinct length).2 ⟨i, p, s, hp, hs, rfl⟩, rfl⟩

end Bare

end RouteContract.Shape
