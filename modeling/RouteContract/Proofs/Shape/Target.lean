import RouteContract.Proofs.Schema.Dispatch
import RouteContract.Proofs.Schema.Lookup
import RouteContract.Proofs.Shape.Meaning

/-!
# Where back references lead

A back reference is followed along the way on which its type was entered. Two things stop it. Once a
way has gone through the items of an array, every table on it is taken for a schema, so the table
of the properties of an object type is asked for its address: a property named `$id` is then one,
and no good one. And the position of an item or of a branch is read as an integer, which may have
too many digits. A way that meets neither leads to the schema that was compiled there
(`Site.follow`).
-/

set_option autoImplicit false

namespace RouteContract.Shape

open RouteContract Pointer Schema

/-! ## Ways that cannot be followed -/

/-- Whether a move goes to the items of an array. -/
def Move.entersItems : Move → Bool
  | .items => true
  | .item _ => true
  | _ => false

/-- The position that a move names. -/
def Move.position? : Move → Option Nat
  | .item i => some i
  | .branch i => some i
  | _ => none

/-- Whether a way goes to the items of an array. -/
def Way.entersItems (way : Way) : Bool := way.any Move.entersItems

/-- A type is an object type that declares a property of a name. -/
def Graph.Declares (g : Graph) (t : TypeId) (name : String) : Prop :=
  ∃ properties index label, g.shape t = .object properties index label ∧
    name ∈ declaredNames properties

/-- A frame is left through its table of properties, behind the items of an array, and that table
has an entry for `$id`. -/
def Frame.Misread (g : Graph) (f : Frame) : Prop :=
  ∃ name, f.exit = .property name ∧ f.way.entersItems = true ∧ g.Declares f.type "$id"

/-- A move names a position with more digits than an integer may have. -/
def Move.TooFar (move : Move) : Prop :=
  ∃ i, move.position? = some i ∧ Number.digitLimit < (toString i).length

/-- A way through object types cannot be followed. -/
def Broken (g : Graph) (frames : List Frame) (way : Way) : Prop :=
  (∃ f ∈ frames, f.Misread g) ∨ ∃ move ∈ way, move.TooFar

section Broken

variable {g : Graph} {frames : List Frame} {way : Way}

theorem broken_nil : ¬ Broken g [] [] := by
  rintro (⟨f, member, -⟩ | ⟨move, member, -⟩)
  · exact List.not_mem_nil member
  · exact List.not_mem_nil member

theorem broken_concat (move : Move) :
    Broken g frames (way ++ [move]) ↔ Broken g frames way ∨ move.TooFar := by
  simp only [Broken, List.mem_append, List.mem_singleton, or_and_right, exists_or, exists_eq_left,
    or_assoc]

theorem broken_enter (f : Frame) (move : Move) :
    Broken g (frames ++ [f]) (way ++ [move]) ↔
      Broken g frames way ∨ f.Misread g ∨ move.TooFar := by
  simp only [Broken, List.mem_append, List.mem_singleton, or_and_right, exists_or, exists_eq_left]
  exact or_or_or_comm

theorem not_tooFar_of_position?_eq_none {move : Move} (h : move.position? = none) :
    ¬ move.TooFar := by
  rintro ⟨i, named, -⟩
  rw [h] at named
  exact nomatch named

end Broken

/-! ## Trails of ways -/

theorem namesSubschema_way (way : Way) (isTable : Bool) (rest : Trail) :
    Trail.namesSubschema isTable (trailOf way.steps ++ rest) =
      if way.entersItems then isTable else Trail.namesSubschema isTable rest := by
  induction way with
  | nil => rfl
  | cons move more ih =>
      have trail : trailOf (Way.steps (move :: more)) ++ rest =
          trailOf move.steps ++ (trailOf (Way.steps more) ++ rest) := by
        rw [Way.steps, List.flatMap_cons, trailOf_append, List.append_assoc]
        rfl
      rw [trail]
      cases move with
      | items => exact namesSubschema_items isTable _
      | item i => exact namesSubschema_items isTable _
      | property name => exact (namesSubschema_properties isTable _ _).trans ih
      | additional => exact (namesSubschema_additional isTable _).trans ih
      | branch i => exact (namesSubschema_anyOf isTable _ _).trans ih

/-! ## Following a way -/

/-- Following a way from the top of a schema leads to a part of it, unless the way is broken. -/
def Follows (S : Json) (base : String) (way : Way) (s : Json) (broken : Prop) : Prop :=
  ∀ rest,
    (¬ broken → followSegments S base [] (written way.steps ++ rest) =
      followSegments s base (trailOf way.steps) rest) ∧
    (broken → ∃ fault, followSegments S base [] (written way.steps ++ rest) = .error fault)

section Follow

variable {S s s' : Json} {base : String} {way : Way} {broken stops : Prop}

theorem Follows.move {move : Move} (h : Follows S base way s broken)
    (onward : ¬ stops → ∀ rest, followSegments s base (trailOf way.steps)
      (written move.steps ++ rest) =
        followSegments s' base (trailOf way.steps ++ trailOf move.steps) rest)
    (halt : stops → ∀ rest, ∃ fault, followSegments s base (trailOf way.steps)
      (written move.steps ++ rest) = .error fault) :
    Follows S base (way ++ [move]) s' (broken ∨ stops) := by
  intro rest
  rw [Way.steps_concat, written_append, trailOf_append, List.append_assoc]
  obtain ⟨follow, lost⟩ := h (written move.steps ++ rest)
  constructor
  · intro free
    rw [not_or] at free
    rw [follow free.1, onward free.2]
  · rintro (isBroken | isStopped)
    · exact lost isBroken
    · by_cases isBroken : broken
      · exact lost isBroken
      · rw [follow isBroken]
        exact halt isStopped rest

/-- The table of members that a keyword leads to has no address of its own. -/
theorem followSegments_key {members : List (String × Json)} {name : String} {trail : Trail}
    (found : Table.get? members name = some s') (noAddress : ownAddress? s' = .ok none)
    (rest : List (List Char)) :
    followSegments (.obj members) base trail (written [.key name] ++ rest) =
      followSegments s' base (trail ++ trailOf [.key name]) rest :=
  followSegments_quiet (stepInto_key found) fun _ => noAddress

/-- A keyword with a list of schemas, and a position in it. -/
theorem followSegments_list {members : List (String × Json)} {name : String} {items : List Json}
    (listed : Trail.namesSubschema false [some name] = false)
    (found : Table.get? members name = some (.arr items)) (i : Nat) (rest : List (List Char)) :
    followSegments (.obj members) base (trailOf way.steps)
        (written [.key name, .index i] ++ rest) =
      followSegments (.arr items) base (trailOf way.steps ++ [some name])
        (escape (toString i).toList :: rest) := by
  refine followSegments_quiet (stepInto_key found) fun names => ?_
  have noTable : isTable (.arr items) = false := rfl
  rw [noTable, namesSubschema_way, listed, ite_self] at names
  exact nomatch names

theorem followSegments_index {items : List Json} {i : Nat} {trail : Trail}
    (found : items[i]? = some s') (noAddress : ownAddress? s' = .ok none)
    (near : ¬ Number.digitLimit < (toString i).length) (rest : List (List Char)) :
    followSegments (.arr items) base trail (escape (toString i).toList :: rest) =
      followSegments s' base (trail ++ [none]) rest :=
  followSegments_quiet (stepInto_index found (Nat.not_lt.1 near)) fun _ => noAddress

/-- A move to a position in a list of schemas. -/
theorem Follows.position {members : List (String × Json)} {name : String} {items : List Json}
    {i : Nat} {move : Move} (h : Follows S base way (.obj members) broken)
    (steps : move.steps = [.key name, .index i]) (position : move.position? = some i)
    (listed : Trail.namesSubschema false [some name] = false)
    (listing : Table.get? members name = some (.arr items)) (found : items[i]? = some s')
    (noAddress : ownAddress? s' = .ok none) :
    Follows S base (way ++ [move]) s' (broken ∨ move.TooFar) := by
  refine h.move ?_ ?_
  · intro near rest
    rw [steps, followSegments_list listed listing,
      followSegments_index found noAddress fun far => near ⟨i, position, far⟩, List.append_assoc]
    rfl
  · rintro ⟨j, position', far⟩ rest
    rw [position, Option.some.injEq] at position'
    subst position'
    rw [steps, followSegments_list listed listing]
    exact ⟨_, followSegments_fault (stepInto_index_tooLong items far)⟩

end Follow

/-! ## Sites are followed -/

/-- A compiled schema gives itself no address and names no dialect. -/
theorem isUnnamed_of_expands {g : Graph} {sub : Visited → List String → TypeId → Json → Prop}
    {visited : Visited} {path : List String} {t : TypeId} {s : Json}
    (noIntersection : ∀ members, g.shape t ≠ .intersection members)
    (h : Expands g sub visited path t s) : ∃ members, s = .obj members ∧ IsUnnamed members := by
  cases shape : g.shape t with
  | scalar kind =>
      simp only [Expands, shape] at h
      exact ⟨_, h, rfl, rfl⟩
  | literal kind value =>
      simp only [Expands, shape] at h
      exact ⟨_, h, rfl, rfl⟩
  | array element =>
      simp only [Expands, shape] at h
      obtain ⟨items, -, rfl⟩ := h
      exact ⟨_, rfl, rfl, rfl⟩
  | tuple elements =>
      simp only [Expands, shape] at h
      obtain ⟨items, -, rfl⟩ := h
      exact ⟨_, rfl, rfl, rfl⟩
  | object properties index name =>
      simp only [Expands, shape, ExpandsObject] at h
      split at h
      · exact ⟨_, h, rfl, rfl⟩
      · obtain ⟨schemas, additional, -, -, rfl⟩ := h
        refine ⟨_, rfl, ?_⟩
        cases (requiredNames properties).isEmpty <;>
          cases (Table.ofList (propertyEntries properties schemas)).isEmpty <;> exact ⟨rfl, rfl⟩
  | union members =>
      simp only [Expands, shape, ExpandsUnion] at h
      split at h
      · obtain ⟨values, -, rfl⟩ := h
        exact ⟨_, rfl, rfl, rfl⟩
      · obtain ⟨schemas, -, rfl⟩ := h
        exact ⟨_, rfl, rfl, rfl⟩
  | intersection members => exact absurd shape (noIntersection members)
  | enumeration values name =>
      simp only [Expands, shape] at h
      subst h
      cases values with
      | nil => exact ⟨_, rfl, rfl, rfl⟩
      | cons first rest => exact ⟨_, rfl, rfl, rfl⟩
  | null =>
      simp only [Expands, shape] at h
      exact ⟨_, h, rfl, rfl⟩
  | any =>
      simp only [Expands, shape] at h
      exact ⟨_, h, rfl, rfl⟩
  | undescribed | bare => simp only [Expands, shape] at h

section Properties

variable {properties : List Property} {schemas : List Json}

theorem ownAddress?_properties (length : schemas.length = (participating properties).length)
    (absent : "$id" ∉ declaredNames properties) :
    Schema.ownAddress? (.obj (Table.ofList (propertyEntries properties schemas))) = .ok none := by
  have none_found :
      Table.get? (Table.ofList (propertyEntries properties schemas)) "$id" = none := by
    cases found : Table.get? (Table.ofList (propertyEntries properties schemas)) "$id" with
    | none => rfl
    | some v =>
        obtain ⟨i, p, s, hp, -, -, named, -⟩ := prevails_of_get?_propertyEntries length found
        have member := (List.mem_filter.1 (List.mem_of_getElem? hp)).1
        exact absurd (List.mem_map.2 ⟨p, member, named⟩) absent
  rw [Schema.ownAddress?, none_found]

/-- A table of properties in which one is named `$id` passes for a schema without a proper
address. -/
theorem ownAddress?_properties_fault
    (length : schemas.length = (participating properties).length)
    (distinct : (declaredNames properties).Nodup)
    (bare : ∀ p ∈ properties, p.annotations = [])
    (declared : "$id" ∈ declaredNames properties) :
    Schema.ownAddress? (.obj (Table.ofList (propertyEntries properties schemas))) =
      .error .notASchema := by
  obtain ⟨p, member, named⟩ := List.mem_map.1 declared
  obtain ⟨i, hp, later⟩ := prevails_of_nodup distinct member (isIgnored_of_bare (bare p member))
  obtain ⟨s, hs⟩ := getElem?_of_length_eq length hp
  obtain ⟨members, isTable⟩ := p.fragment_eq_obj s
  have found := get?_propertyEntries hp later hs
  rw [named, isTable] at found
  rw [Schema.ownAddress?, found]

end Properties

section Sites

variable {g : Graph} {root t : TypeId} {start : List String} {S : Json}
  {frames : List Frame} {way : Way} {notes : Table Json}

/-- The schema of a site. -/
theorem Site.isUnnamed (simple : g.Simple root) (site : Site g root frames way notes t)
    {visited : Visited} {path : List String} {s : Json}
    (compiled : g.compile t path visited = .ok s) : ∃ members, s = .obj members ∧ IsUnnamed members :=
  isUnnamed_of_expands (simple.not_intersection site.reaches) (expands_of_compile compiled)

theorem Site.ownAddress? (simple : g.Simple root) (site : Site g root frames way notes t)
    {visited : Visited} {path : List String} {s : Json}
    (compiled : g.compile t path visited = .ok s) : Schema.ownAddress? s = .ok none := by
  obtain ⟨members, rfl, unnamed⟩ := site.isUnnamed simple compiled
  exact unnamed.ownAddress?

/-- **A way is followed to the schema that was compiled there, unless it is broken.** -/
theorem Site.follow (base : String) (simple : g.Simple root)
    (compiled : g.compile root start [] = .ok S) (site : Site g root frames way notes t) :
    ∃ s, g.compile t (start ++ way.segments) (frames.map (Frame.visit start)) = .ok s ∧
      Follows S base way s (Broken g frames way) := by
  induction site with
  | root =>
      refine ⟨S, by rwa [Way.segments, Way.steps, List.flatMap_nil, List.map_nil, List.append_nil],
        fun rest => ⟨fun _ => rfl, fun isBroken => absurd isBroken broken_nil⟩⟩
  | @items frames way notes t element site shape ih =>
      obtain ⟨s, parent, follow⟩ := ih
      have expands := expands_of_compile parent
      simp only [Expands, shape] at expands
      obtain ⟨items, part, rfl⟩ := expands
      have address := (site.items shape).ownAddress? simple part
      refine ⟨items, by rwa [Way.segments_concat, ← List.append_assoc], ?_⟩
      rw [broken_concat]
      have near : ¬ Move.items.TooFar := not_tooFar_of_position?_eq_none rfl
      exact follow.move (fun _ rest => followSegments_key rfl address rest)
        fun far => absurd far near
  | @item frames way notes t u elements i site shape hu ih =>
      obtain ⟨s, parent, follow⟩ := ih
      have expands := expands_of_compile parent
      simp only [Expands, shape] at expands
      obtain ⟨items, ⟨length, each⟩, rfl⟩ := expands
      obtain ⟨s, hs⟩ := getElem?_of_length_eq length hu
      have part := each i u s hu hs
      have address := (site.item shape hu).ownAddress? simple part
      refine ⟨s, by rwa [Way.segments_concat, ← List.append_assoc], ?_⟩
      rw [broken_concat]
      exact follow.position rfl rfl rfl rfl hs address
  | @property frames way notes t properties index name p site shape new prevails typed ih =>
      obtain ⟨s, parent, follow⟩ := ih
      have expands := expands_of_compile parent
      simp only [Expands, shape, ExpandsObject, find?_visits_eq_none_iff.2 new] at expands
      obtain ⟨schemas, additional, ⟨length, each⟩, -, rfl⟩ := expands
      obtain ⟨distinct, bare⟩ := simple.object site.reaches shape
      obtain ⟨i, hp, later⟩ := prevails
      obtain ⟨s, hs⟩ := getElem?_of_length_eq length hp
      have part := each i p s hp hs typed
      rw [← visits_concat _ _ _ _ (.property p.name)] at part
      have address := (site.property shape new ⟨i, hp, later⟩ typed).ownAddress? simple part
      have noNotes := bare p (List.mem_filter.1 (List.mem_of_getElem? hp)).1
      have standing := get?_propertyEntries hp later hs
      rw [Property.fragment, typed, noNotes, if_neg Bool.false_ne_true,
        annotated_nil (isSchema_of_compile part)] at standing
      have nonempty : Table.ofList (propertyEntries properties schemas) ≠ [] := fun empty => by
        rw [empty] at standing
        cases standing
      have listing := child?_objectSchema_properties additional (requiredNames properties) nonempty
      have declares : g.Declares t "$id" ↔ "$id" ∈ declaredNames properties := by
        constructor
        · rintro ⟨properties', index', name', shape', member⟩
          rw [shape, TypeShape.object.injEq] at shape'
          exact shape'.1 ▸ member
        · exact fun member => ⟨properties, index, name, shape, member⟩
      refine ⟨s, by rwa [Way.segments_concat, ← List.append_assoc], ?_⟩
      rw [broken_enter]
      refine follow.move ?_ ?_
      · intro kept rest
        refine (followSegments_quiet (stepInto_key listing) fun names => ?_).trans ?_
        · have enters : way.entersItems = true := by
            cases enters : way.entersItems with
            | true => rfl
            | false =>
                rw [namesSubschema_way, enters] at names
                cases names
          exact ownAddress?_properties length fun member =>
            kept (.inl ⟨p.name, rfl, enters, declares.2 member⟩)
        · refine (followSegments_key standing address rest).trans ?_
          rw [List.append_assoc]
          rfl
      · rintro (⟨name', -, enters, member⟩ | far) rest
        · have names :
              Trail.namesSubschema true (trailOf way.steps ++ [some "properties"]) = true := by
            rw [namesSubschema_way, enters, if_pos rfl]
          exact ⟨_, followSegments_noAddress (stepInto_key listing) names
            (ownAddress?_properties_fault length distinct bare (declares.1 member))⟩
        · exact absurd far (not_tooFar_of_position?_eq_none rfl)
  | @additional frames way notes t u properties name site shape new ih =>
      obtain ⟨s, parent, follow⟩ := ih
      have expands := expands_of_compile parent
      simp only [Expands, shape, ExpandsObject, find?_visits_eq_none_iff.2 new] at expands
      obtain ⟨schemas, additional, -, part, rfl⟩ := expands
      rw [← visits_concat _ _ _ _ .additional] at part
      have address := (site.additional shape new).ownAddress? simple part
      refine ⟨additional, by rwa [Way.segments_concat, ← List.append_assoc], ?_⟩
      rw [broken_enter]
      have kept : ¬ (Frame.Misread g ⟨t, way, .additional⟩ ∨ Move.additional.TooFar) := by
        rintro (⟨name, exit, -⟩ | far)
        · cases exit
        · exact not_tooFar_of_position?_eq_none rfl far
      exact follow.move (fun _ rest => followSegments_key rfl address rest)
        fun stops => absurd stops kept
  | @branch frames way notes t u members i site shape mixed hu ih =>
      obtain ⟨s, parent, follow⟩ := ih
      have expands := expands_of_compile parent
      simp only [Expands, shape, ExpandsUnion, mixed] at expands
      obtain ⟨schemas, ⟨length, each⟩, rfl⟩ := expands
      obtain ⟨s, hs⟩ := getElem?_of_length_eq length hu
      have part := each i u s hu hs
      have address := (site.branch shape mixed hu).ownAddress? simple part
      refine ⟨s, by rwa [Way.segments_concat, ← List.append_assoc], ?_⟩
      rw [broken_concat]
      have bound := (List.getElem?_eq_some_iff.1 hs).1
      have hs' : (schemas ++ g.folded members)[i]? = some s := by
        rw [List.getElem?_append_left bound, hs]
      exact follow.position rfl rfl rfl rfl hs' address

end Sites

end RouteContract.Shape
