import RouteContract.Proofs.Data.Result
import RouteContract.Proofs.Shape.Link
import RouteContract.Sources.Description

/-!
# What describing leaves as it is

Describing adds types and leaves those that are there (`Keeps`), with one exception: while the fields
of a record are walked, its object type gains properties (`Grows`). An object type of a record is
told from the other types by what it is: it is the only object type without an index signature.
-/

set_option autoImplicit false

namespace RouteContract.Sources

open RouteContract Shape

/-! ## Growing descriptions -/

/-- Whether a shape is one that the object type of a record has: it may gain properties. -/
def isOpen : TypeShape → Bool
  | .object _ none _ => true
  | _ => false

/-- A description that goes on from another one: its types are there, those of records perhaps with
more properties, and its records have their object types. -/
structure Grows (d d' : Description) : Prop where
  size : d.types.size ≤ d'.types.size
  shape : ∀ t < d.types.size, isOpen (d.types.shape t) = false →
    d'.types.shape t = d.types.shape t
  object : ∀ c t, d.object? c = some t → d'.object? c = some t

/-- A description that goes on from another one without a change to what is there. -/
structure Keeps (d d' : Description) : Prop where
  size : d.types.size ≤ d'.types.size
  shape : ∀ t < d.types.size, d'.types.shape t = d.types.shape t
  object : ∀ c t, d.object? c = some t → d'.object? c = some t

variable {d d' d'' : Description}

theorem Grows.trans (first : Grows d d') (second : Grows d' d'') : Grows d d'' where
  size := Nat.le_trans first.size second.size
  shape := by
    intro t known closed
    have same := first.shape t known closed
    rw [← same]
    rw [← same] at closed
    exact second.shape t (Nat.lt_of_lt_of_le known first.size) closed
  object := fun c t found => second.object c t (first.object c t found)

theorem Keeps.refl (d : Description) : Keeps d d := ⟨Nat.le_refl _, fun _ _ => rfl, fun _ _ h => h⟩

theorem Keeps.trans (first : Keeps d d') (second : Keeps d' d'') : Keeps d d'' where
  size := Nat.le_trans first.size second.size
  shape := fun t known =>
    (second.shape t (Nat.lt_of_lt_of_le known first.size)).trans (first.shape t known)
  object := fun c t found => second.object c t (first.object c t found)

theorem Keeps.grows (keeps : Keeps d d') : Grows d d' :=
  ⟨keeps.size, fun t known _ => keeps.shape t known, keeps.object⟩

/-! ## Adding a type -/

@[simp] theorem object?_push (d : Description) (s : TypeShape) (c : ClassId) :
    (d.push s).object? c = d.object? c := rfl

@[simp] theorem size_push (d : Description) (s : TypeShape) :
    (d.push s).types.size = d.types.size + 1 := Graph.size_push _ _

theorem shape_push_self (d : Description) (s : TypeShape) :
    (d.push s).types.shape d.types.size = s := Graph.shape_push_size _ _

theorem shape_push_of_lt {t : TypeId} (known : t < d.types.size) (s : TypeShape) :
    (d.push s).types.shape t = d.types.shape t := Graph.shape_push_of_lt _ _ known

theorem keeps_push (d : Description) (s : TypeShape) : Keeps d (d.push s) :=
  ⟨by rw [size_push]; exact Nat.le_succ _, fun _ known => shape_push_of_lt known s, fun _ _ h => h⟩

/-! ## Beginning a record -/

@[simp] theorem size_register (d : Description) (c : ClassId) (name : String) :
    (d.register c name).types.size = d.types.size + 1 := Graph.size_push _ _

theorem shape_register_self (d : Description) (c : ClassId) (name : String) :
    (d.register c name).types.shape d.types.size = .object [] none name := Graph.shape_push_size _ _

theorem shape_register_of_lt {t : TypeId} (known : t < d.types.size) (c : ClassId) (name : String) :
    (d.register c name).types.shape t = d.types.shape t := Graph.shape_push_of_lt _ _ known

@[simp] theorem object?_register_self (d : Description) (c : ClassId) (name : String) :
    (d.register c name).object? c = some d.types.size := by
  simp [Description.register, Description.object?]

theorem object?_register_of_ne {c c' : ClassId} (other : c' ≠ c) (d : Description) (name : String) :
    (d.register c name).object? c' = d.object? c' := by
  simp [Description.register, Description.object?, Description.push, Ne.symm other]

theorem keeps_register {c : ClassId} (new : d.object? c = none) (name : String) :
    Keeps d (d.register c name) where
  size := by
    rw [size_register]
    exact Nat.le_succ _
  shape := fun _ known => shape_register_of_lt known c name
  object := by
    intro c' t found
    rw [object?_register_of_ne ?_]
    · exact found
    · rintro rfl
      rw [new] at found
      cases found

/-! ## Adding a property -/

section AddProperty

variable {t : TypeId} {properties : List Property} {name : String}

@[simp] theorem object?_addProperty (d : Description) (t : TypeId) (p : Property) (c : ClassId) :
    (d.addProperty t p).object? c = d.object? c := by
  rw [Description.addProperty]
  split
  · rfl
  · rfl

@[simp] theorem size_addProperty (d : Description) (t : TypeId) (p : Property) :
    (d.addProperty t p).types.size = d.types.size := by
  rw [Description.addProperty]
  split
  · exact Graph.size_set _ _ _
  · rfl

theorem shape_addProperty_self (known : t < d.types.size)
    (shape : d.types.shape t = .object properties none name) (p : Property) :
    (d.addProperty t p).types.shape t = .object (properties ++ [p]) none name := by
  rw [Description.addProperty, shape]
  exact Graph.shape_set_self _ _ known

theorem shape_addProperty_of_ne {u : TypeId} (other : u ≠ t) (d : Description) (p : Property) :
    (d.addProperty t p).types.shape u = d.types.shape u := by
  rw [Description.addProperty]
  split
  · exact Graph.shape_set_of_ne _ _ other
  · rfl

theorem grows_addProperty (shape : d.types.shape t = .object properties none name) (p : Property) :
    Grows d (d.addProperty t p) where
  size := Nat.le_of_eq (size_addProperty d t p).symm
  shape := by
    intro u _ closed
    refine shape_addProperty_of_ne ?_ d p
    rintro rfl
    rw [shape] at closed
    cases closed
  object := fun c u found => (object?_addProperty d t p c).trans found

end AddProperty

/-! ## Records that are not described yet -/

/-- The number of classes of a module without an object type. -/
def pending (m : Module) (d : Description) : Nat :=
  (List.range m.classes.length).countP fun c => (d.object? c).isNone

theorem pending_le_length (m : Module) (d : Description) : pending m d ≤ m.classes.length := by
  refine Nat.le_trans List.countP_le_length ?_
  rw [List.length_range]

theorem pending_le_of_object (m : Module)
    (object : ∀ c t, d.object? c = some t → d'.object? c = some t) : pending m d' ≤ pending m d := by
  refine List.countP_mono_left fun c _ free => ?_
  rw [Option.isNone_iff_eq_none] at free ⊢
  cases found : d.object? c with
  | none => rfl
  | some t =>
      rw [object c t found] at free
      cases free

/-- A record that is begun is not pending any more. -/
theorem pending_register_lt {m : Module} {c : ClassId} {definition : Class}
    (known : m.class? c = some definition) (new : d.object? c = none) (name : String) :
    pending m (d.register c name) < pending m d := by
  have member : c ∈ List.range m.classes.length := by
    rw [Module.class?, List.getElem?_eq_some_iff] at known
    exact List.mem_range.2 known.1
  refine countP_lt_of_mem (a := c) (fun other free => ?_) member ?_ ?_
  · rw [Option.isNone_iff_eq_none] at free ⊢
    by_cases same : other = c
    · exact same ▸ new
    · exact (object?_register_of_ne same d name).symm.trans free
  · rw [new]
    rfl
  · rw [object?_register_self]
    rfl

end RouteContract.Sources
