import RouteContract.Proofs.Shape.Target

/-!
# Where validation gets stuck

Validating a value against a compiled schema has a fault when it comes to a back reference that
cannot be followed, or when it is to show what has no text: an integer with too many digits. When
that happens is said on the type graph (`Stuck`): the value is taken apart along the type, a type
that is met again is taken up where it was entered, and of a union only the branches before the
first one that the value inhabits are looked at.
-/

set_option autoImplicit false

namespace RouteContract.Shape

open RouteContract

/-! ## Refusals that cannot be shown -/

/-- A type refuses a value by itself, and not for its parts. -/
def Graph.RefusesItself (g : Graph) (t : TypeId) (v : Json) : Prop :=
  match g.shape t with
  | .array _ => ¬ ∃ items, v = .arr items
  | .tuple _ => ¬ ∃ items, v = .arr items
  | .object _ _ _ => ¬ ∃ members, v = .obj members
  | _ => ¬ Inhabits g t v

/-- The values that a type lists in its refusals. -/
def Graph.listed (g : Graph) (t : TypeId) : List Json :=
  match g.shape t with
  | .literal _ value => [value]
  | .enumeration values _ => values
  | .union members =>
      match g.collapsed? members, orderedValues (members.map g.literalValue) with
      | some _, .ok values => values
      | _, _ => []
  | _ => []

/-- A type refuses a value, and the value, or one of those that it lists, has no text. -/
def Graph.Unshowable (g : Graph) (t : TypeId) (v : Json) : Prop :=
  g.RefusesItself t v ∧ (v.isWritable && (Json.arr (g.listed t)).isWritable) = false

/-- Most types list nothing, so a refusal shows the value alone. -/
theorem unshowable_iff {g : Graph} {t : TypeId} {v : Json} (nothing : g.listed t = []) :
    g.Unshowable t v ↔ g.RefusesItself t v ∧ v.isWritable = false := by
  have written : (Json.arr []).isWritable = true := rfl
  rw [Graph.Unshowable, nothing, written, Bool.and_true]

/-! ## Getting stuck -/

/-- Validating a value against a type at a site comes to a back reference that cannot be followed,
or to a refusal that cannot be shown. -/
inductive Stuck (g : Graph) : List Frame → Way → TypeId → Json → Prop where
  | unshown {frames : List Frame} {way : Way} {t : TypeId} {v : Json} :
      g.Unshowable t v → Stuck g frames way t v
  | items {frames : List Frame} {way : Way} {t element : TypeId} {items : List Json} {item : Json} :
      g.shape t = .array element → item ∈ items →
      Stuck g frames (way ++ [.items]) element item → Stuck g frames way t (.arr items)
  | item {frames : List Frame} {way : Way} {t u : TypeId} {elements : List TypeId}
      {items : List Json} {i : Nat} {item : Json} :
      g.shape t = .tuple elements → elements[i]? = some u → items[i]? = some item →
      Stuck g frames (way ++ [.item i]) u item → Stuck g frames way t (.arr items)
  | property {frames : List Frame} {way : Way} {t : TypeId} {properties : List Property}
      {index : Option TypeId} {name : String} {members : List (String × Json)} {p : Property}
      {w : Json} :
      g.shape t = .object properties index name → t ∉ entered frames → p ∈ properties →
      Table.get? members p.name = some w →
      Stuck g (frames ++ [⟨t, way, .property p.name⟩]) (way ++ [.property p.name]) p.type w →
      Stuck g frames way t (.obj members)
  | additional {frames : List Frame} {way : Way} {t u : TypeId} {properties : List Property}
      {name : String} {members : List (String × Json)} {entry : String × Json} :
      g.shape t = .object properties (some u) name → t ∉ entered frames → entry ∈ members →
      entry.1 ∉ declaredNames properties →
      Stuck g (frames ++ [⟨t, way, .additional⟩]) (way ++ [.additional]) u entry.2 →
      Stuck g frames way t (.obj members)
  | branch {frames : List Frame} {way : Way} {t u : TypeId} {members : List TypeId} {i : Nat}
      {v : Json} :
      g.shape t = .union members → g.collapsed? members = none →
      (g.branches members)[i]? = some u →
      (∀ (j : Nat) (w : TypeId), j < i → (g.branches members)[j]? = some w → ¬ Inhabits g w v) →
      Stuck g frames (way ++ [.branch i]) u v → Stuck g frames way t v
  | lost {frames : List Frame} {way : Way} {k : Nat} {f : Frame} {properties : List Property}
      {index : Option TypeId} {name : String} {v : Json} :
      g.shape f.type = .object properties index name → frames[k]? = some f →
      Broken g (frames.take k) f.way → Stuck g frames way f.type v
  | again {frames : List Frame} {way : Way} {k : Nat} {f : Frame} {properties : List Property}
      {index : Option TypeId} {name : String} {v : Json} :
      g.shape f.type = .object properties index name → frames[k]? = some f →
      Stuck g (frames.take k) f.way f.type v → Stuck g frames way f.type v

/-- One step of getting stuck, given where validation is stuck at the parts of a type. -/
def Hangs (g : Graph) (sub : List Frame → Way → TypeId → Json → Prop) (frames : List Frame)
    (way : Way) (t : TypeId) (v : Json) : Prop :=
  g.Unshowable t v ∨ match g.shape t with
  | .array element =>
      ∃ items, v = .arr items ∧ ∃ item ∈ items, sub frames (way ++ [.items]) element item
  | .tuple elements =>
      ∃ items, v = .arr items ∧ ∃ (i : Nat) (u : TypeId) (item : Json),
        elements[i]? = some u ∧ items[i]? = some item ∧ sub frames (way ++ [.item i]) u item
  | .object properties index _ =>
      (∃ (k : Nat) (f : Frame), frames[k]? = some f ∧ f.type = t ∧
        (Broken g (frames.take k) f.way ∨ sub (frames.take k) f.way t v)) ∨
      (t ∉ entered frames ∧ ∃ members, v = .obj members ∧
        ((∃ p ∈ properties, ∃ w, Table.get? members p.name = some w ∧
          sub (frames ++ [⟨t, way, .property p.name⟩]) (way ++ [.property p.name]) p.type w) ∨
        ∃ entry ∈ members, entry.1 ∉ declaredNames properties ∧ ∃ u, index = some u ∧
          sub (frames ++ [⟨t, way, .additional⟩]) (way ++ [.additional]) u entry.2))
  | .union members =>
      g.collapsed? members = none ∧ ∃ (i : Nat) (u : TypeId), (g.branches members)[i]? = some u ∧
        sub frames (way ++ [.branch i]) u v ∧
        ∀ (j : Nat) (w : TypeId), j < i → (g.branches members)[j]? = some w → ¬ Inhabits g w v
  | _ => False

/-- **Validation is stuck where it hangs.** -/
theorem stuck_iff {g : Graph} {frames : List Frame} {way : Way} {t : TypeId} {v : Json} :
    Stuck g frames way t v ↔ Hangs g (Stuck g) frames way t v := by
  constructor
  · intro h
    cases h with
    | unshown refused => exact .inl refused
    | items shape member inner =>
        refine .inr ?_
        rw [shape]
        exact ⟨_, rfl, _, member, inner⟩
    | item shape hu hitem inner =>
        refine .inr ?_
        rw [shape]
        exact ⟨_, rfl, _, _, _, hu, hitem, inner⟩
    | property shape new member found inner =>
        refine .inr ?_
        rw [shape]
        exact .inr ⟨new, _, rfl, .inl ⟨_, member, _, found, inner⟩⟩
    | additional shape new member others inner =>
        refine .inr ?_
        rw [shape]
        exact .inr ⟨new, _, rfl, .inr ⟨_, member, others, _, rfl, inner⟩⟩
    | branch shape mixed hu earlier inner =>
        refine .inr ?_
        rw [shape]
        exact ⟨mixed, _, _, hu, inner, earlier⟩
    | lost shape found isBroken =>
        refine .inr ?_
        rw [shape]
        exact .inl ⟨_, _, found, rfl, .inl isBroken⟩
    | again shape found inner =>
        refine .inr ?_
        rw [shape]
        exact .inl ⟨_, _, found, rfl, .inr inner⟩
  · rintro (refused | h)
    · exact .unshown refused
    cases shape : g.shape t with
    | array element =>
        rw [shape] at h
        obtain ⟨items, rfl, item, member, inner⟩ := h
        exact .items shape member inner
    | tuple elements =>
        rw [shape] at h
        obtain ⟨items, rfl, i, u, item, hu, hitem, inner⟩ := h
        exact .item shape hu hitem inner
    | object properties index name =>
        rw [shape] at h
        rcases h with ⟨k, f, found, rfl, isBroken | inner⟩ | ⟨new, members, rfl, below⟩
        · exact .lost shape found isBroken
        · exact .again shape found inner
        · rcases below with ⟨p, member, w, found, inner⟩ | ⟨entry, member, others, u, rfl, inner⟩
          · exact .property shape new member found inner
          · exact .additional shape new member others inner
    | union members =>
        rw [shape] at h
        obtain ⟨mixed, i, u, hu, inner, earlier⟩ := h
        exact .branch shape mixed hu earlier inner
    | scalar | literal | enumeration | null | any | intersection | undescribed | bare =>
        rw [shape] at h
        exact h.elim

/-! ## Types that are met again -/

section Again

variable {g : Graph} {root t : TypeId} {frames : List Frame} {way : Way} {notes : Table Json}
  {v : Json}

/-- A type is being expanded once. -/
theorem Site.frame_unique (site : Site g root frames way notes t) {i k : Nat} {f f' : Frame}
    (hf : frames[i]? = some f) (hf' : frames[k]? = some f') (same : f.type = f'.type) : i = k := by
  have later {i k : Nat} {f f' : Frame} (hf : frames[i]? = some f) (hf' : frames[k]? = some f')
      (same : f.type = f'.type) : ¬ i < k := by
    intro lt
    obtain ⟨-, new, -⟩ := site.frame hf'
    refine new (same ▸ List.mem_map.2 ⟨f, List.mem_iff_getElem?.2 ⟨i, ?_⟩, rfl⟩)
    rw [List.getElem?_take_of_lt lt, hf]
  have h₁ := later hf hf' same
  have h₂ := later hf' hf same.symm
  omega

/-- A type that is met again is stuck when the way to where it was entered cannot be followed, or
when it is stuck there. -/
theorem Site.stuck_again_iff (site : Site g root frames way notes t) {properties : List Property}
    {index : Option TypeId} {name : String} (shape : g.shape t = .object properties index name)
    {k : Nat} {f : Frame} (found : frames[k]? = some f) (same : f.type = t) :
    Stuck g frames way t v ↔
      Broken g (frames.take k) f.way ∨ Stuck g (frames.take k) f.way t v := by
  subst same
  rw [stuck_iff, Hangs, shape]
  constructor
  · rintro (refused | ⟨i, f', hf', same, h⟩ | ⟨new, -⟩)
    · exact .inr (.unshown refused)
    · obtain rfl := site.frame_unique hf' found same
      rw [found, Option.some.injEq] at hf'
      exact hf' ▸ h
    · exact absurd (List.mem_map.2 ⟨f, List.mem_of_getElem? found, rfl⟩) new
  · exact fun h => .inr (.inl ⟨k, f, found, rfl, h⟩)

/-- A type that is not being expanded is stuck when the value of a member is, or when a value that
is no object cannot be shown. -/
theorem stuck_object_iff {properties : List Property} {index : Option TypeId} {name : String}
    (shape : g.shape t = .object properties index name) (new : t ∉ entered frames) :
    Stuck g frames way t v ↔ g.Unshowable t v ∨ ∃ members, v = .obj members ∧
      ((∃ p ∈ properties, ∃ w, Table.get? members p.name = some w ∧
        Stuck g (frames ++ [⟨t, way, .property p.name⟩]) (way ++ [.property p.name]) p.type w) ∨
      ∃ entry ∈ members, entry.1 ∉ declaredNames properties ∧ ∃ u, index = some u ∧
        Stuck g (frames ++ [⟨t, way, .additional⟩]) (way ++ [.additional]) u entry.2) := by
  rw [stuck_iff, Hangs, shape]
  refine or_congr_right ⟨?_, fun h => .inr ⟨new, h⟩⟩
  rintro (⟨k, f, found, rfl, -⟩ | ⟨-, h⟩)
  · exact absurd (List.mem_map.2 ⟨f, List.mem_of_getElem? found, rfl⟩) new
  · exact h

end Again

end RouteContract.Shape
