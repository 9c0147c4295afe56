import RouteContract.Proofs.Sources.Depiction

/-!
# Object types of records

The object type of a record gets a property for one field after the other. At any time it has them
for the first fields, in order (`Begun`); it is complete when it has one for every field, and stalled
when the next field cannot be described, because its documentation cannot be read or because its type
mentions a record that is stalled itself. What is complete or stalled stays so.
-/

set_option autoImplicit false

namespace RouteContract.Sources

open RouteContract Shape

/-! ## Fields and properties -/

namespace Module.Field

variable (f : Module.Field)

/-- The term that the type of a property is described from: the hint without a demand, remarks and a
way out around it. -/
def core : Term := (f.hint.withoutDemand.splitRemarks.1.splitOptional).1

/-- Whether the hint leaves a way out. -/
def isNullable : Bool := (f.hint.withoutDemand.splitRemarks.1.splitOptional).2

/-- The remarks around the hint. -/
def remarks : List Json := f.hint.withoutDemand.splitRemarks.2

end Module.Field

/-- What is said about the property of a field of a class. -/
def annotationsOfField (m : Module) (definition : Class) (f : Module.Field) :
    Except SourceError (Table Json) :=
  annotationsFor (m.docOf? definition f.name) f.keywords f.remarks

/-- A property stands for a field. -/
structure Portrays (m : Module) (d : Description) (definition : Class) (f : Module.Field)
    (p : Property) : Prop where
  name : p.name = f.name
  type : Depicts m d f.core p.type
  isOptional : p.isOptional = (f.isOptional || f.isNullable)
  annotations : annotationsOfField m definition f = .ok p.annotations

/-! ## Records that are begun, complete or stalled -/

/-- A record has an object type with properties for its first fields. -/
structure Begun (m : Module) (d : Description) (c : ClassId) (t : TypeId) (definition : Class)
    (properties : List Property) : Prop where
  found : m.record? c = some definition
  object : d.object? c = some t
  known : t < d.types.size
  shape : d.types.shape t = .object properties none definition.name
  drawn : List.Forall₂ (Portrays m d definition)
    ((m.fieldsOf definition).take properties.length) properties

/-- A record has an object type with a property for every field. -/
def Complete (m : Module) (d : Description) (c : ClassId) : Prop :=
  ∃ t definition properties, Begun m d c t definition properties ∧
    properties.length = (m.fieldsOf definition).length

/-- A record has an object type that lacks the properties from some field on, which cannot be
described. -/
inductive Stalled (m : Module) (d : Description) : ClassId → Prop
  /-- The documentation of the field cannot be read. -/
  | text {c : ClassId} {t : TypeId} {definition : Class} {properties : List Property}
      {f : Module.Field} {e : SourceError} (begun : Begun m d c t definition properties)
      (next : (m.fieldsOf definition)[properties.length]? = some f)
      (failed : annotationsOfField m definition f = .error e) : Stalled m d c
  /-- The type of the field mentions a record that is stalled. -/
  | type {c c' : ClassId} {t : TypeId} {definition : Class} {properties : List Property}
      {f : Module.Field} (begun : Begun m d c t definition properties)
      (next : (m.fieldsOf definition)[properties.length]? = some f)
      (mentions : f.core.Mentions c') (stalled : Stalled m d c') : Stalled m d c

variable {m : Module} {d d' : Description} {c : ClassId} {t : TypeId} {definition : Class}
  {properties : List Property}

theorem Portrays.mono (grows : Grows d d') {f : Module.Field} {p : Property}
    (h : Portrays m d definition f p) : Portrays m d' definition f p :=
  { h with type := h.type.mono grows }

theorem Begun.mono (grows : Grows d d') (same : d'.types.shape t = d.types.shape t)
    (h : Begun m d c t definition properties) : Begun m d' c t definition properties where
  found := h.found
  object := grows.object c t h.object
  known := Nat.lt_of_lt_of_le h.known grows.size
  shape := same.trans h.shape
  drawn := h.drawn.imp fun _ _ portrays => portrays.mono grows

theorem Complete.mono (grows : Grows d d')
    (same : ∀ t, d.object? c = some t → d'.types.shape t = d.types.shape t)
    (h : Complete m d c) : Complete m d' c := by
  obtain ⟨t, definition, properties, begun, all⟩ := h
  exact ⟨t, definition, properties, begun.mono grows (same t begun.object), all⟩

theorem Begun.keep (keeps : Keeps d d') (h : Begun m d c t definition properties) :
    Begun m d' c t definition properties :=
  h.mono keeps.grows (keeps.shape t h.known)

theorem Complete.keep (keeps : Keeps d d') (h : Complete m d c) : Complete m d' c := by
  obtain ⟨t, definition, properties, begun, all⟩ := h
  exact ⟨t, definition, properties, begun.keep keeps, all⟩

/-- **What is stalled stays stalled.** -/
theorem Stalled.keep (keeps : Keeps d d') (h : Stalled m d c) : Stalled m d' c := by
  induction h with
  | text begun next failed => exact .text (begun.keep keeps) next failed
  | type begun next mentions _ ih => exact .type (begun.keep keeps) next mentions ih

theorem Begun.length_le (h : Begun m d c t definition properties) :
    properties.length ≤ (m.fieldsOf definition).length := by
  have same := h.drawn.length_eq
  rw [List.length_take] at same
  omega

/-- A complete record has a property for every field, in order. -/
theorem Begun.forall₂ (h : Begun m d c t definition properties)
    (all : properties.length = (m.fieldsOf definition).length) :
    List.Forall₂ (Portrays m d definition) (m.fieldsOf definition) properties := by
  have drawn := h.drawn
  rwa [all, List.take_length] at drawn

/-! ## Sound descriptions -/

/-- What is true of a description at any time: each record with an object type is begun, different
records have different ones, and the links of all other types lead to types that were there
before. -/
structure Sound (m : Module) (d : Description) : Prop where
  begun : ∀ c t, d.object? c = some t → ∃ definition properties, Begun m d c t definition properties
  distinct : ∀ c c' t, d.object? c = some t → d.object? c' = some t → c = c'
  falls : ∀ t, (∀ c, d.object? c ≠ some t) → ∀ u ∈ (d.types.shape t).links, u < t
  inside : ∀ t, ∀ u ∈ (d.types.shape t).links, u < d.types.size
  fits : ∀ t, d.types.FitsKind t

theorem shape_of_size_le (d : Description) (beyond : d.types.size ≤ t) : d.types.shape t = .bare := by
  rw [Graph.shape, Graph.node, Array.getElem?_eq_none beyond]
  rfl

theorem sound_empty (m : Module) : Sound m .empty where
  begun := nofun
  distinct := nofun
  falls := by
    intro t _ u linked
    rw [shape_of_size_le .empty (Nat.zero_le t)] at linked
    cases linked
  inside := by
    intro t u linked
    rw [shape_of_size_le .empty (Nat.zero_le t)] at linked
    cases linked
  fits := by
    intro t kind value shape
    rw [shape_of_size_le .empty (Nat.zero_le t)] at shape
    cases shape

namespace Sound

variable (sound : Sound m d)

include sound

theorem known (object : d.object? c = some t) : t < d.types.size := by
  obtain ⟨_, _, begun⟩ := sound.begun c t object
  exact begun.known

theorem depicted {term : Term} (h : Depicts m d term t) : t < d.types.size := by
  induction h with
  | record _ object => exact sound.known object
  | remarked _ ih => exact ih
  | made known => exact known

/-- Adding a type keeps a description sound. -/
theorem push {s : TypeShape} (links : ∀ u ∈ s.links, u < d.types.size)
    (fits : ∀ kind value, s = .literal kind value → kind.admits value = true) :
    Sound m (d.push s) := by
  have keeps := keeps_push d s
  have cases (t : TypeId) : t < d.types.size ∧ (d.push s).types.shape t = d.types.shape t ∨
      t = d.types.size ∧ (d.push s).types.shape t = s ∨
      (d.push s).types.shape t = .bare := by
    rcases Nat.lt_trichotomy t d.types.size with known | rfl | beyond
    · exact .inl ⟨known, keeps.shape t known⟩
    · exact .inr (.inl ⟨rfl, shape_push_self d s⟩)
    · refine .inr (.inr (shape_of_size_le _ ?_))
      rw [size_push]
      exact beyond
  refine ⟨fun c t object => ?_, sound.distinct, fun t other u linked => ?_, fun t u linked => ?_,
    fun t kind value shape => ?_⟩
  · obtain ⟨definition, properties, begun⟩ := sound.begun c t object
    exact ⟨definition, properties, begun.keep keeps⟩
  · rcases cases t with ⟨-, same⟩ | ⟨rfl, same⟩ | same
    · exact sound.falls t other u (same ▸ linked)
    · exact links u (same ▸ linked)
    · rw [same] at linked
      cases linked
  · rw [size_push]
    rcases cases t with ⟨-, same⟩ | ⟨rfl, same⟩ | same
    · exact Nat.lt_succ_of_lt (sound.inside t u (same ▸ linked))
    · exact Nat.lt_succ_of_lt (links u (same ▸ linked))
    · rw [same] at linked
      cases linked
  · rcases cases t with ⟨-, same⟩ | ⟨rfl, same⟩ | same
    · exact sound.fits t kind value (same ▸ shape)
    · exact fits kind value (same ▸ shape)
    · rw [same] at shape
      cases shape

end Sound

end RouteContract.Sources
