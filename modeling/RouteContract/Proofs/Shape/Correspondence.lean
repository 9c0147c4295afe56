import RouteContract.Proofs.Shape.Guarded
import RouteContract.Proofs.Shape.Stuck
import RouteContract.Proofs.Shape.Verdict
import RouteContract.Schema.Checker

/-!
# Compiled schemas mean what their types mean

A plain type compiles to a schema that finds nothing wrong with exactly the values that inhabit the
type, unless validation gets stuck, at a back reference that cannot be followed or at a refusal that
cannot be shown, and then it has a fault (`Graph.Plain.validation`). The proof takes the value apart:
below a part of it every site may be assumed to judge rightly, and at the value itself the parts of
the type are judged first. A back reference always leads to an object type that was entered, so the
only thing left to judge there is parts of the value.
-/

set_option autoImplicit false

namespace RouteContract.Shape

open RouteContract Pointer Schema

variable {g : Graph} {root : TypeId} {S : Json}

/-- A schema at a site judges a value as the type does. -/
def Judges (g : Graph) (S : Json) (frames : List Frame) (way : Way) (t : TypeId) (s v : Json) :
    Prop :=
  ∀ hops members, 0 < hops → s = .obj members →
    Decides (Stuck g frames way t v) (Inhabits g t v)
      (applyAll .draft7 .draft7 ⟨S, ""⟩ hops false "" members v)

/-- A schema is the one that was compiled at a site. -/
def CompiledAt (g : Graph) (frames : List Frame) (way : Way) (t : TypeId) (s : Json) : Prop :=
  g.compile t way.segments (frames.map (Frame.visit [])) = .ok s

/-- All sites judge a value as their types do. -/
def SitesJudge (g : Graph) (root : TypeId) (S v : Json) : Prop :=
  ∀ frames way notes t s, Site g root frames way notes t → CompiledAt g frames way t s →
    Judges g S frames way t s v

theorem chainLimit_pos (scope : Scope) : 0 < scope.chainLimit := by
  rw [Scope.chainLimit]
  simp [Dialect.addresses]

section Sites

variable {frames : List Frame} {way : Way} {notes : Table Json} {t : TypeId} {s v : Json}

/-- A schema at a site that judges rightly does so below any step. -/
theorem Judges.descend (plain : g.Plain root) (site : Site g root frames way notes t)
    (compiled : CompiledAt g frames way t s) (judges : Judges g S frames way t s v) {hops : Nat}
    (positive : 0 < hops) (step schemaStep : Option Step) :
    Decides (Stuck g frames way t v) (Inhabits g t v)
      (descend .draft7 ⟨S, ""⟩ hops false "" step schemaStep s v) := by
  obtain ⟨members, rfl, unnamed⟩ := site.isUnnamed plain.simple compiled
  exact decides_descend unnamed (judges hops members positive rfl)

/-- A part of an array, or a member of an object, is judged at a site below. -/
theorem SitesJudge.descend (plain : g.Plain root) (judge : SitesJudge g root S v)
    (site : Site g root frames way notes t) (compiled : CompiledAt g frames way t s)
    (step schemaStep : Option Step) :
    Decides (Stuck g frames way t v) (Inhabits g t v)
      (Schema.descend .draft7 ⟨S, ""⟩ (Scope.chainLimit ⟨S, ""⟩) false "" step schemaStep s v) :=
  (judge _ _ _ _ _ site compiled).descend plain site compiled (chainLimit_pos _) step schemaStep

/-! ## Arrays -/

theorem weight_lt_of_mem {item : Json} {items : List Json} (member : item ∈ items) :
    item.weight < (Json.arr items).weight := by
  have le := Json.weight_le_weightItems member
  rw [Json.weight]
  omega

theorem judges_array (plain : g.Plain root) (site : Site g root frames way notes t)
    {element : TypeId} (shape : g.shape t = .array element) {items : Json}
    (part : CompiledAt g frames (way ++ [.items]) element items)
    (lighter : ∀ w, w.weight < v.weight → SitesJudge g root S w) :
    Judges g S frames way t (.obj [("type", .str "array"), ("items", items)]) v := by
  rintro hops members - form
  cases form
  obtain ⟨sub, rfl, -⟩ := isSchema_of_compile part
  have nothing : g.listed t = [] := by rw [Graph.listed, shape]
  rw [inhabits_iff, Asks, stuck_iff, Hangs, unshowable_iff nothing, Graph.RefusesItself, shape]
  by_cases isArray : ∃ values, v = .arr values
  · obtain ⟨values, rfl⟩ := isArray
    refine (decides_arraySchema fun hx => decides_items (Stuck g frames (way ++ [.items]) element)
      (Inhabits g element) hx fun i item found => ?_).congr ?_ fun _ => ?_
    · exact (lighter item (weight_lt_of_mem (List.mem_of_getElem? found))).descend plain
        (site.items shape) part _ _
    · simp
    · simp
  · have other (values : List Json) : v ≠ .arr values := fun same => isArray ⟨values, same⟩
    refine (decides_arraySchema fun hx => decides_items_other hx other).congr ?_ fun _ => ?_
    · simp [other]
    · simp [other]

theorem judges_tuple (plain : g.Plain root) (site : Site g root frames way notes t)
    {elements : List TypeId} (shape : g.shape t = .tuple elements) {subs : List Json}
    (length : subs.length = elements.length)
    (part : ∀ (i : Nat) (u : TypeId) (s : Json), elements[i]? = some u → subs[i]? = some s →
      CompiledAt g frames (way ++ [.item i]) u s)
    (lighter : ∀ w, w.weight < v.weight → SitesJudge g root S w) :
    Judges g S frames way t (.obj [("type", .str "array"), ("items", .arr subs)]) v := by
  rintro hops members - form
  cases form
  have nothing : g.listed t = [] := by rw [Graph.listed, shape]
  rw [inhabits_iff, Asks, stuck_iff, Hangs, unshowable_iff nothing, Graph.RefusesItself, shape]
  by_cases isArray : ∃ values, v = .arr values
  · obtain ⟨values, rfl⟩ := isArray
    refine (decides_arraySchema (fun hx => decides_items_each
      (fun i item _ => ∃ u, elements[i]? = some u ∧ Stuck g frames (way ++ [.item i]) u item)
      (fun i item _ => ∀ u, elements[i]? = some u → Inhabits g u item) hx
      fun i item sub hitem hsub => ?_)).congr ?_ fun _ => ?_
    · obtain ⟨u, hu⟩ := getElem?_of_length_eq length.symm hsub
      refine ((lighter item (weight_lt_of_mem (List.mem_of_getElem? hitem))).descend plain
        (site.item shape hu) (part i u sub hu hsub) _ _).congr ?_ fun _ => ?_
      · simp [hu]
      · simp [hu]
    · refine or_congr_right ⟨?_, ?_⟩
      · rintro ⟨i, item, sub, hitem, hsub, u, hu, inner⟩
        exact ⟨values, rfl, i, u, item, hu, hitem, inner⟩
      · rintro ⟨_, ⟨⟩, i, u, item, hu, hitem, inner⟩
        obtain ⟨sub, hsub⟩ := getElem?_of_length_eq length hu
        exact ⟨i, item, sub, hitem, hsub, u, hu, inner⟩
    · constructor
      · rintro ⟨-, each⟩
        refine ⟨values, rfl, fun i u item hu hitem => ?_⟩
        obtain ⟨sub, hsub⟩ := getElem?_of_length_eq length hu
        exact each i item sub hitem hsub u hu
      · rintro ⟨_, ⟨⟩, each⟩
        exact ⟨⟨values, rfl⟩, fun i item sub hitem hsub u hu => each i u item hu hitem⟩
  · have other (values : List Json) : v ≠ .arr values := fun same => isArray ⟨values, same⟩
    refine (decides_arraySchema fun hx => decides_items_other hx other).congr ?_ fun _ => ?_
    · simp [other]
    · simp [other]

/-! ## Object types -/

theorem weight_lt_of_get? {members : Table Json} {name : String} {w : Json}
    (found : Table.get? members name = some w) : w.weight < (Json.obj members).weight := by
  have lt : w.weight < Json.weightMembers members :=
    Json.weight_lt_weightMembers (Table.mem_of_get? found)
  rw [Json.weight]
  omega

theorem weight_lt_of_entry {members : List (String × Json)} {entry : String × Json}
    (member : entry ∈ members) : entry.2.weight < (Json.obj members).weight := by
  have lt := Json.weight_lt_weightMembers member
  rw [Json.weight]
  omega

section Entered

variable {properties : List Property} {index : Option TypeId} {name : String}
  {schema : List (String × Json)} {hops : Nat}

/-- The members that an object type declares. -/
theorem judges_declared (plain : g.Plain root) (site : Site g root frames way notes t)
    (shape : g.shape t = .object properties index name) (new : t ∉ entered frames)
    {schemas : List Json} (length : schemas.length = properties.length)
    (part : ∀ (i : Nat) (p : Property) (s : Json), properties[i]? = some p → schemas[i]? = some s →
      CompiledAt g (frames ++ [⟨t, way, .property p.name⟩]) (way ++ [.property p.name]) p.type s)
    (lighter : ∀ w, w.weight < v.weight → SitesJudge g root S w)
    (hx : ("properties", .obj (Table.ofList (propertyEntries properties schemas))) ∈ schema) :
    Decides
      (∃ members, v = .obj members ∧ ∃ p ∈ properties, ∃ w, Table.get? members p.name = some w ∧
        Stuck g (frames ++ [⟨t, way, .property p.name⟩]) (way ++ [.property p.name]) p.type w)
      (∀ members, v = .obj members → ∀ p ∈ properties, ∀ w, Table.get? members p.name = some w →
        Inhabits g p.type w)
      (applyKeyword .draft7 ⟨S, ""⟩ hops false "" schema "properties" _ hx v) := by
  obtain ⟨distinct, bare⟩ := plain.object site.reaches shape
  have unannotated : ∀ p ∈ properties, p.annotations = [] := fun p hp => (bare p hp).2
  by_cases isObject : ∃ members, v = .obj members
  · obtain ⟨members, rfl⟩ := isObject
    refine (decides_properties
      (fun entry w => ∃ p ∈ properties, p.name = entry.1 ∧
        Stuck g (frames ++ [⟨t, way, .property p.name⟩]) (way ++ [.property p.name]) p.type w)
      (fun entry w => ∀ p ∈ properties, p.name = entry.1 → Inhabits g p.type w) hx
      fun entry member w found => ?_).congr ?_ fun _ => ?_
    · obtain ⟨i, p, s, hp, hs, rfl⟩ := (mem_propertyTable_iff unannotated distinct length).1 member
      have declared := List.mem_of_getElem? hp
      have typed := isSelfTyped_of_bare (unannotated p declared)
      have compiled := part i p s hp hs
      rw [Property.fragment, typed, unannotated p declared, if_neg Bool.false_ne_true,
        annotated_nil (isSchema_of_compile compiled)]
      have below := site.property shape new (prevails_of_nodup distinct declared
        (isIgnored_of_bare (unannotated p declared))) typed
      refine ((lighter w (weight_lt_of_get? found)).descend plain below compiled _ _).congr ?_
        fun _ => ?_
      · constructor
        · exact fun inner => ⟨p, declared, rfl, inner⟩
        · rintro ⟨q, hq, same, inner⟩
          obtain rfl := eq_of_name_eq distinct hq declared same
          exact inner
      · constructor
        · intro inner q hq same
          obtain rfl := eq_of_name_eq distinct hq declared same
          exact inner
        · exact fun inner => inner p declared rfl
    · constructor
      · rintro ⟨entry, -, w, found, p, hp, same, inner⟩
        exact ⟨members, rfl, p, hp, w, same ▸ found, inner⟩
      · rintro ⟨_, ⟨⟩, p, hp, w, found, inner⟩
        obtain ⟨i, found_p⟩ := List.mem_iff_getElem?.1 hp
        obtain ⟨s, hs⟩ := getElem?_of_length_eq length found_p
        exact ⟨_, (mem_propertyTable_iff unannotated distinct length).2 ⟨i, p, s, found_p, hs, rfl⟩,
          w, found, p, hp, rfl, inner⟩
    · constructor
      · rintro each _ ⟨⟩ p hp w found
        obtain ⟨i, found_p⟩ := List.mem_iff_getElem?.1 hp
        obtain ⟨s, hs⟩ := getElem?_of_length_eq length found_p
        exact each _ ((mem_propertyTable_iff unannotated distinct length).2
          ⟨i, p, s, found_p, hs, rfl⟩) w found p hp rfl
      · intro each entry _ w found p hp same
        exact each members rfl p hp w (same ▸ found)
  · have other (members : List (String × Json)) : v ≠ .obj members :=
      fun same => isObject ⟨members, same⟩
    refine (decides_members_other (by simp [memberKeywords]) hx other).congr ?_ fun _ => ?_
    · simp [other]
    · simp [other]

/-- The members that an object type does not declare. -/
theorem judges_others (plain : g.Plain root) (site : Site g root frames way notes t)
    (shape : g.shape t = .object properties index name) (new : t ∉ entered frames)
    {table : Table Json} {additional : Json}
    (indexed : match index with
      | none => additional = .bool false
      | some u =>
          CompiledAt g (frames ++ [⟨t, way, .additional⟩]) (way ++ [.additional]) u additional)
    (lighter : ∀ w, w.weight < v.weight → SitesJudge g root S w)
    (noPatterns : Table.get? schema "patternProperties" = none)
    (declares : (Table.get? schema "properties").getD (.obj []) = .obj table)
    (declared : ∀ key, Table.has table key = true ↔ key ∈ declaredNames properties)
    (hx : ("additionalProperties", additional) ∈ schema) :
    Decides
      (∃ members, v = .obj members ∧ ∃ entry ∈ members, entry.1 ∉ declaredNames properties ∧
        ∃ u, index = some u ∧
          Stuck g (frames ++ [⟨t, way, .additional⟩]) (way ++ [.additional]) u entry.2)
      (∀ members, v = .obj members → ∀ entry ∈ members, entry.1 ∉ declaredNames properties →
        ∃ u, index = some u ∧ Inhabits g u entry.2)
      (applyKeyword .draft7 ⟨S, ""⟩ hops false "" schema "additionalProperties" additional hx v) := by
  by_cases isObject : ∃ members, v = .obj members
  · obtain ⟨members, rfl⟩ := isObject
    have mem_undeclared (entry : String × Json) : entry ∈ undeclared table members ↔
        entry ∈ members ∧ entry.1 ∉ declaredNames properties := by
      rw [undeclared, List.mem_filter, Bool.not_eq_true', ← Bool.not_eq_true, declared]
    cases index with
    | none =>
        subst indexed
        refine (decides_additional_closed noPatterns declares hx).congr (by simp) fun _ => ?_
        rw [List.eq_nil_iff_forall_not_mem]
        simp only [mem_undeclared]
        simp
    | some u =>
        obtain ⟨sub, rfl, -⟩ := isSchema_of_compile indexed
        refine (decides_additional
          (fun entry =>
            Stuck g (frames ++ [⟨t, way, .additional⟩]) (way ++ [.additional]) u entry.2)
          (fun entry => Inhabits g u entry.2) noPatterns declares hx
          fun entry member => ?_).congr ?_ fun _ => ?_
        · have inside := ((mem_undeclared entry).1 member).1
          exact (lighter entry.2 (weight_lt_of_entry inside)).descend plain
            (site.additional shape new) indexed _ _
        · simp [mem_undeclared, and_assoc]
        · simp [mem_undeclared]
  · have other (members : List (String × Json)) : v ≠ .obj members :=
      fun same => isObject ⟨members, same⟩
    refine (decides_members_other (by simp [memberKeywords]) hx other).congr ?_ fun _ => ?_
    · simp [other]
    · simp [other]

/-- An object type that is entered. -/
theorem judges_object (plain : g.Plain root) (site : Site g root frames way notes t)
    (shape : g.shape t = .object properties index name) (new : t ∉ entered frames)
    (compiled : CompiledAt g frames way t s)
    (lighter : ∀ w, w.weight < v.weight → SitesJudge g root S w) (hops : Nat)
    {members : List (String × Json)} (form : s = .obj members) :
    Decides (Stuck g frames way t v) (Inhabits g t v)
      (applyAll .draft7 .draft7 ⟨S, ""⟩ hops false "" members v) := by
  have expands := expands_of_compile compiled
  simp only [Expands, shape, ExpandsObject, find?_visits_eq_none_iff.2 new] at expands
  obtain ⟨schemas, additional, ⟨length, each⟩, indexed, rfl⟩ := expands
  obtain ⟨distinct, bare⟩ := plain.object site.reaches shape
  have unannotated : ∀ p ∈ properties, p.annotations = [] := fun p hp => (bare p hp).2
  rw [participating_eq_self unannotated] at length each
  have part (i : Nat) (p : Property) (s : Json) (hp : properties[i]? = some p)
      (hs : schemas[i]? = some s) :
      CompiledAt g (frames ++ [⟨t, way, .property p.name⟩]) (way ++ [.property p.name]) p.type
        s := by
    have typed := isSelfTyped_of_bare (unannotated p (List.mem_of_getElem? hp))
    rw [CompiledAt, visits_concat, Way.segments_concat]
    exact each i p s hp hs typed
  obtain ⟨noPatterns, declares⟩ := objectSchema_keywords form
  have declared (key : String) := has_propertyTable_iff unannotated distinct length key
  refine (decides_objectSchema form
    (fun hx => judges_others plain site shape new ?_ lighter noPatterns declares declared hx)
    (fun hx => judges_declared plain site shape new length part lighter hx) ?_).congr ?_ fun _ => ?_
  · cases index with
    | none => exact indexed
    | some u =>
        simp only [CompiledAt, visits_concat, Way.segments_concat]
        exact indexed
  · intro empty
    have noProperties : properties = [] := by
      by_contra nonempty
      obtain ⟨p, hp⟩ := List.exists_mem_of_ne_nil properties nonempty
      have found := (declared p.name).2 (List.mem_map.2 ⟨p, hp, rfl⟩)
      rw [empty] at found
      cases found
    simp [noProperties]
  · have nothing : g.listed t = [] := by rw [Graph.listed, shape]
    rw [stuck_object_iff shape new, unshowable_iff nothing, Graph.RefusesItself, shape,
      ← admits_object_iff, Bool.not_eq_true]
    refine or_congr_right ⟨?_, ?_⟩
    · rintro (⟨members, rfl, others⟩ | ⟨members, rfl, inner⟩)
      · exact ⟨members, rfl, .inr others⟩
      · exact ⟨members, rfl, .inl inner⟩
    · rintro ⟨members, rfl, inner | others⟩
      · exact .inr ⟨members, rfl, inner⟩
      · exact .inl ⟨members, rfl, others⟩
  · rw [inhabits_iff, Asks, shape, admits_object_iff]
    constructor
    · rintro ⟨⟨members, rfl⟩, others, required, inner⟩
      refine ⟨members, rfl, fun p hp needed => ?_, inner members rfl, ?_, ?_⟩
      · refine required members rfl p.name (List.mem_map.2 ⟨p, List.mem_filter.2 ⟨?_, ?_⟩, rfl⟩)
        · rwa [participating_eq_self unannotated]
        · rw [needed]
          rfl
      · intro entry member undeclared
        obtain ⟨u, known, -⟩ := others members rfl entry member undeclared
        rw [known]
        rfl
      · intro entry member undeclared u known
        obtain ⟨u', known', inhabits⟩ := others members rfl entry member undeclared
        rw [known, Option.some.injEq] at known'
        exact known' ▸ inhabits
    · rintro ⟨members, rfl, required, inner, closed, others⟩
      refine ⟨⟨members, rfl⟩, ?_, ?_, ?_⟩
      · rintro _ ⟨⟩ entry member undeclared
        obtain ⟨u, known⟩ := Option.isSome_iff_exists.1 (closed entry member undeclared)
        exact ⟨u, known, others entry member undeclared u known⟩
      · rintro _ ⟨⟩ name needed
        obtain ⟨p, hp, rfl⟩ := List.mem_map.1 needed
        obtain ⟨hp, needed⟩ := List.mem_filter.1 hp
        rw [participating_eq_self unannotated] at hp
        exact required p hp (by simpa using needed)
      · rintro _ ⟨⟩
        exact inner

end Entered

/-! ## Back references -/

theorem Site.percent_not_mem (plain : g.Plain root) (site : Site g root frames way notes t) :
    ∀ segment ∈ way.segments, '%' ∉ segment.toList := by
  have digits (i : Nat) : '%' ∉ Nat.toDigits 10 i :=
    fun member => nomatch Number.isDigits_toDigits i '%' member
  have concat {way : Way} {move : Move} (before : ∀ segment ∈ way.segments, '%' ∉ segment.toList)
      (last : ∀ segment ∈ move.steps.map Step.segment, '%' ∉ segment.toList) :
      ∀ segment ∈ Way.segments (way ++ [move]), '%' ∉ segment.toList := by
    intro segment member
    rw [Way.segments_concat] at member
    exact (List.mem_append.1 member).elim (before segment) (last segment)
  induction site with
  | root => exact fun segment member => absurd member List.not_mem_nil
  | items _ _ ih => exact concat ih (by simp [Move.steps, Step.segment])
  | item _ _ _ ih => exact concat ih (by simp [Move.steps, Step.segment, digits])
  | @property frames way notes t properties index name p site shape new prevails typed ih =>
      have plainName := ((plain.object site.reaches shape).2 p (List.mem_filter.1 prevails.mem).1).1
      exact concat ih (by simp [Move.steps, Step.segment, plainName])
  | additional _ _ _ ih => exact concat ih (by simp [Move.steps, Step.segment])
  | branch _ _ _ _ ih => exact concat ih (by simp [Move.steps, Step.segment, digits])

/-- A type that is met again is judged where it was entered. -/
theorem judges_again (plain : g.Plain root) (top : g.compile root [] [] = .ok S)
    (site : Site g root frames way notes t) {properties : List Property} {index : Option TypeId}
    {name : String} (shape : g.shape t = .object properties index name)
    (again : t ∈ entered frames) (compiled : CompiledAt g frames way t s)
    (lighter : ∀ w, w.weight < v.weight → SitesJudge g root S w) :
    Judges g S frames way t s v := by
  rintro hops members positive rfl
  have expands := expands_of_compile compiled
  simp only [Expands, shape, ExpandsObject] at expands
  split at expands
  · next entry met =>
      obtain ⟨f, member, rfl⟩ := List.mem_map.1 (List.mem_of_find?_eq_some met)
      obtain ⟨k, found⟩ := List.mem_iff_getElem?.1 member
      have same : f.type = t := by simpa [Frame.visit] using List.find?_some met
      subst same
      obtain ⟨⟨notes', above⟩, new, -, -⟩ := site.frame found
      obtain ⟨target, there, follow⟩ := above.follow "" plain.simple top
      obtain ⟨fine, lost⟩ := follow []
      obtain ⟨targetMembers, rfl, unnamed⟩ := above.isUnnamed plain.simple there
      have noEscape (segment : String) (member : segment ∈ f.way.segments) :
          hasEscape segment.toList = false :=
        hasEscape_eq_false_of_not_mem (above.percent_not_mem plain segment member)
      have lookup := lookup_fragment ⟨S, ""⟩ f.way.segments
      have segments :
          f.way.segments.map (fun s => escape s.toList) = written f.way.steps ++ [] := by
        rw [List.append_nil, Way.segments, List.map_map]
        rfl
      rw [readSegments_of_plain noEscape, segments] at lookup
      cases expands
      cases hops with
      | zero => exact absurd positive (Nat.lt_irrefl 0)
      | succ hops =>
          have means := site.stuck_again_iff shape found rfl (v := v)
          by_cases isBroken : Broken g (frames.take k) f.way
          · obtain ⟨fault, isLost⟩ := lost isBroken
            exact decides_reference_fault (lookup.trans isLost) (means.2 (.inl isBroken))
          · have judged := judges_object plain above shape new there lighter hops rfl
            refine (decides_reference (lookup.trans (fine isBroken)) unnamed.native judged).congr ?_
              fun _ => Iff.rfl
            rw [means]
            simp [isBroken]
  · next met => exact absurd again (find?_visits_eq_none_iff.1 met)

/-! ## Unions -/

theorem inhabits_literal_iff {m : TypeId} {kind : ScalarKind}
    (literal : g.isLiteral kind m = true) :
    Inhabits g m v ↔ Json.equal (g.literalValue m) v = true := by
  obtain ⟨value, shape⟩ := isLiteral_iff.1 literal
  rw [inhabits_iff, Asks, shape, literalValue_eq shape]

/-- The literal members of a union are fit. -/
theorem fitsKind_members (plain : g.Plain root) (site : Site g root frames way notes t)
    {members : List TypeId} (shape : g.shape t = .union members) :
    ∀ m ∈ members, g.FitsKind m :=
  fun m member => plain.wellKinded m (site.reaches.part (by rwa [Graph.parts, shape]))

/-- A union that became one enumeration. -/
theorem judges_collapsed (plain : g.Plain root) (site : Site g root frames way notes t)
    {members : List TypeId} (shape : g.shape t = .union members) {kind : ScalarKind}
    (collapsed : g.collapsed? members = some kind) {values : List Json}
    (ordered : orderedValues (members.map g.literalValue) = .ok values) :
    Judges g S frames way t (.obj [("type", .str kind.name), ("enum", .arr values)]) v := by
  rintro hops _ - ⟨⟩
  have fits := fitsKind_members plain site shape
  have means : Inhabits g t v ↔ ∃ m ∈ members, Json.equal (g.literalValue m) v = true := by
    rw [inhabits_iff, Asks, shape]
    refine exists_congr fun m => and_congr_right fun member => ?_
    rw [inhabits_literal_iff ((collapsed?_eq_some collapsed).2.2 m member)]
  have listed : g.listed t = values := by
    rw [Graph.listed, shape]
    simp only [collapsed, ordered]
  refine (decides_collapsed fits collapsed ordered).congr ?_ fun _ => means.symm
  rw [stuck_iff, Hangs, Graph.Unshowable, listed, Graph.RefusesItself, shape, ← means]
  simp [collapsed]

/-- A union with branches. -/
theorem judges_union (plain : g.Plain root) (site : Site g root frames way notes t)
    {members : List TypeId} (shape : g.shape t = .union members)
    (mixed : g.collapsed? members = none) {schemas : List Json}
    (length : schemas.length = (g.branches members).length)
    (part : ∀ (i : Nat) (u : TypeId) (s : Json), (g.branches members)[i]? = some u →
      schemas[i]? = some s → CompiledAt g frames (way ++ [.branch i]) u s ∧
        Judges g S frames (way ++ [.branch i]) u s v) :
    Judges g S frames way t (.obj [("anyOf", .arr (schemas ++ g.folded members))]) v := by
  rintro hops _ positive ⟨⟩
  have isBranch (m : TypeId) : m ∈ g.branches members ↔
      m ∈ members ∧ g.isLiteral .boolean m = false := by
    rw [Graph.branches, List.mem_filter, Bool.not_eq_true']
  have means : Inhabits g t v ↔
      (∃ i < schemas.length, ∃ u, (g.branches members)[i]? = some u ∧ Inhabits g u v) ∨
        IsFolded g members v := by
    rw [inhabits_iff, Asks, shape]
    constructor
    · rintro ⟨m, member, inhabits⟩
      cases literal : g.isLiteral .boolean m with
      | false =>
          obtain ⟨i, hi⟩ := List.mem_iff_getElem?.1 ((isBranch m).2 ⟨member, literal⟩)
          have bound := (List.getElem?_eq_some_iff.1 hi).1
          exact .inl ⟨i, length ▸ bound, m, hi, inhabits⟩
      | true => exact .inr ⟨m, member, literal, (inhabits_literal_iff literal).1 inhabits⟩
    · rintro (⟨i, -, u, hu, inhabits⟩ | ⟨m, member, literal, same⟩)
      · exact ⟨u, ((isBranch u).1 (List.mem_of_getElem? hu)).1, inhabits⟩
      · exact ⟨m, member, (inhabits_literal_iff literal).2 same⟩
  refine (decides_branches (fitsKind_members plain site shape)
    (fun i => ∃ u, (g.branches members)[i]? = some u ∧ Stuck g frames (way ++ [.branch i]) u v)
    (fun i => ∃ u, (g.branches members)[i]? = some u ∧ Inhabits g u v)
    fun i sub found => ?_).congr ?_ fun _ => means.symm
  · obtain ⟨u, hu⟩ := getElem?_of_length_eq length.symm found
    obtain ⟨compiled, judges⟩ := part i u sub hu found
    refine (judges.descend plain (site.branch shape mixed hu) compiled positive _ _).congr ?_
      fun _ => ?_
    · simp [hu]
    · simp [hu]
  · have nothing : g.listed t = [] := by
      rw [Graph.listed, shape]
      simp only [mixed]
    rw [stuck_iff, Hangs, unshowable_iff nothing, Graph.RefusesItself, shape, ← means, or_comm]
    refine or_congr_right ⟨?_, ?_⟩
    · rintro ⟨i, -, ⟨u, hu, inner⟩, earlier⟩
      exact ⟨mixed, i, u, hu, inner,
        fun j w lt hw inhabits => earlier j lt ⟨w, hw, inhabits⟩⟩
    · rintro ⟨-, i, u, hu, inner, earlier⟩
      have bound := (List.getElem?_eq_some_iff.1 hu).1
      refine ⟨i, length ▸ bound, ⟨u, hu, inner⟩, fun j lt => ?_⟩
      rintro ⟨w, hw, inhabits⟩
      exact earlier j w lt hw inhabits

/-! ## Types without parts -/

theorem judges_scalar {kind : ScalarKind} (shape : g.shape t = .scalar kind) :
    Judges g S frames way t (.obj [("type", .str kind.name)]) v := by
  rintro hops _ - ⟨⟩
  have nothing : g.listed t = [] := by rw [Graph.listed, shape]
  have means : Inhabits g t v ↔ kind.admits v = true := by rw [inhabits_iff, Asks, shape]
  refine (decides_scalar kind).congr ?_ fun _ => means.symm
  rw [stuck_iff, Hangs, unshowable_iff nothing, Graph.RefusesItself, shape, means,
    Bool.not_eq_true, or_false]

theorem judges_literal (plain : g.Plain root) (site : Site g root frames way notes t)
    {kind : ScalarKind} {value : Json} (shape : g.shape t = .literal kind value) :
    Judges g S frames way t (.obj [("type", .str kind.name), ("enum", .arr [value])]) v := by
  rintro hops _ - ⟨⟩
  have admitted := plain.literal site.reaches shape
  have listed : g.listed t = [value] := by rw [Graph.listed, shape]
  have means : Inhabits g t v ↔ ∃ w ∈ [value], Json.equal w v = true := by
    rw [inhabits_iff, Asks, shape]
    simp
  refine (decides_listed kind (by simpa using admitted)).congr ?_ fun _ => means.symm
  rw [stuck_iff, Hangs, Graph.Unshowable, listed, Graph.RefusesItself, shape, means, or_false]

theorem judges_enumeration (plain : g.Plain root) (site : Site g root frames way notes t)
    {values : List Json} {name : String} (shape : g.shape t = .enumeration values name) :
    Judges g S frames way t (enumerationSchema values) v := by
  rintro hops members - form
  have known := plain.plainAt t site.reaches
  rw [Graph.PlainAt, shape] at known
  have listed : g.listed t = values := by rw [Graph.listed, shape]
  have means : Inhabits g t v ↔ values = [] ∨ ∃ value ∈ values, Json.equal value v = true := by
    rw [inhabits_iff, Asks, shape]
  rw [stuck_iff, Hangs, Graph.Unshowable, listed, Graph.RefusesItself, shape, means, or_false]
  cases values with
  | nil =>
      cases form
      exact (decides_applyAll (activeKeywords_eq_self rfl) decides_collect_nil).congr (by simp)
        fun _ => by simp
  | cons first more =>
      rcases known with texts | numbers
      · obtain ⟨s, rfl⟩ := admits_string_iff.1 (texts first (List.mem_cons_self ..))
        cases form
        exact (decides_listed .string texts).congr (by simp) fun _ => by simp
      · have number : first.quantity?.isSome = true :=
          admits_number_iff.1 (numbers first (List.mem_cons_self ..))
        rw [enumerationSchema, number, if_pos rfl] at form
        cases form
        exact (decides_listed .number numbers).congr (by simp) fun _ => by simp

theorem judges_null (shape : g.shape t = .null) :
    Judges g S frames way t (.obj [("type", .str "null")]) v := by
  rintro hops _ - ⟨⟩
  have isNull : TypeName.ofText? "null" = some .null := rfl
  have nothing : g.listed t = [] := by rw [Graph.listed, shape]
  have means : Inhabits g t v ↔ TypeName.null.admits v = true := by
    rw [inhabits_iff, Asks, shape]
    cases v <;> simp [TypeName.admits]
  refine (decides_typed isNull).congr ?_ fun _ => means.symm
  rw [stuck_iff, Hangs, unshowable_iff nothing, Graph.RefusesItself, shape, means,
    Bool.not_eq_true, or_false]

theorem judges_any (shape : g.shape t = .any) : Judges g S frames way t (.obj []) v := by
  rintro hops _ - ⟨⟩
  have inhabits : Inhabits g t v := .any shape
  refine (decides_applyAll (activeKeywords_eq_self rfl) decides_collect_nil).congr ?_ fun _ => ?_
  · rw [stuck_iff, Hangs, Graph.Unshowable, Graph.RefusesItself, shape]
    simp [inhabits]
  · exact iff_of_true trivial inhabits

end Sites

/-! ## All sites judge rightly -/

/-- At one value, a site judges rightly when all sites do at lighter values. -/
theorem sitesJudge_of_lighter (plain : g.Plain root) (top : g.compile root [] [] = .ok S)
    {v : Json} (lighter : ∀ w, w.weight < v.weight → SitesJudge g root S w) :
    SitesJudge g root S v := by
  intro frames way notes t s site compiled
  refine compile_induction (motive := fun visited path t s => g.compile t path visited = .ok s →
    ∀ frames way notes, visited = frames.map (Frame.visit []) → path = way.segments →
      Site g root frames way notes t → Judges g S frames way t s v) ?_ compiled compiled
      frames way notes rfl rfl site
  clear compiled site
  rintro _ _ t s h compiled frames way notes rfl rfl site
  have same {move : Move} {u : TypeId} {s : Json} {segments : List String}
      (named : move.steps.map Step.segment = segments)
      (part : g.compile u (way.segments ++ segments) (frames.map (Frame.visit [])) = .ok s) :
      CompiledAt g frames (way ++ [move]) u s := by
    rw [CompiledAt, Way.segments_concat, named]
    exact part
  cases shape : g.shape t with
  | scalar kind =>
      simp only [Expands, shape] at h
      exact h ▸ judges_scalar shape
  | literal kind value =>
      simp only [Expands, shape] at h
      exact h ▸ judges_literal plain site shape
  | array element =>
      simp only [Expands, shape] at h
      obtain ⟨items, ⟨part, -⟩, rfl⟩ := h
      exact judges_array plain site shape (same rfl part) lighter
  | tuple elements =>
      simp only [Expands, shape] at h
      obtain ⟨subs, ⟨length, each⟩, rfl⟩ := h
      exact judges_tuple plain site shape length
        (fun i u s hu hs => same rfl (each i u s hu hs).1) lighter
  | object properties index name =>
      by_cases again : t ∈ entered frames
      · exact judges_again plain top site shape again compiled lighter
      · exact fun hops members _ form =>
          judges_object plain site shape again compiled lighter hops form
  | union members =>
      simp only [Expands, shape, ExpandsUnion] at h
      split at h
      · next kind collapsed =>
          obtain ⟨values, ordered, rfl⟩ := h
          exact judges_collapsed plain site shape collapsed ordered
      · next mixed =>
          obtain ⟨schemas, ⟨length, each⟩, rfl⟩ := h
          refine judges_union plain site shape mixed length fun i u s hu hs => ?_
          obtain ⟨part, judged⟩ := each i u s hu hs
          exact ⟨same rfl part, judged part frames (way ++ [.branch i]) [] rfl
            (by rw [Way.segments_concat]; rfl) (site.branch shape mixed hu)⟩
  | intersection members => exact absurd shape (plain.not_intersection site.reaches members)
  | enumeration values name =>
      simp only [Expands, shape] at h
      exact h ▸ judges_enumeration plain site shape
  | null =>
      simp only [Expands, shape] at h
      exact h ▸ judges_null shape
  | any =>
      simp only [Expands, shape] at h
      exact h ▸ judges_any shape
  | undescribed | bare => simp only [Expands, shape] at h

theorem sitesJudge (plain : g.Plain root) (top : g.compile root [] [] = .ok S) (v : Json) :
    SitesJudge g root S v :=
  sitesJudge_of_lighter plain top fun w _ => sitesJudge plain top w
termination_by v.weight

/-- **A plain type compiles to a schema that means what the type means**: validation finds nothing
wrong with exactly the values that inhabit the type, unless it gets stuck at a back reference that
cannot be followed or at a refusal that cannot be shown, and exactly then it has a fault. -/
theorem Graph.Plain.validation (plain : g.Plain root) :
    ∃ S, g.compile root [] [] = .ok S ∧ ∀ v,
      ((∃ fault, violations S v = .error fault) ↔ Stuck g [] [] root v) ∧
      (¬ Stuck g [] [] root v → (violations S v = .ok [] ↔ Inhabits g root v)) := by
  obtain ⟨S, compiled⟩ := plain.compile_ok .refl [] []
  refine ⟨S, compiled, fun v => ?_⟩
  obtain ⟨members, rfl, unnamed⟩ := Site.isUnnamed plain.simple .root compiled
  have judged := sitesJudge plain compiled v [] [] [] root _ .root compiled _ members
    (chainLimit_pos ⟨.obj members, ""⟩) rfl
  have evaluation : violations (.obj members) v =
      applyAll .draft7 .draft7 ⟨.obj members, ""⟩ (Scope.chainLimit ⟨.obj members, ""⟩) false ""
        members v := by
    rw [violations, unnamed.ownAddress?]
    rfl
  rw [evaluation]
  exact ⟨judged.error_iff, fun free => judged.nil_iff fun isStuck => absurd isStuck free⟩

/-- Lists of records with an identifier, each with a chain of children that may end anywhere. -/
def recordGraph : Graph :=
  ⟨#[⟨.array 1, none⟩,
    ⟨.object [⟨"$id", 2, false, []⟩, ⟨"child", 3, false, []⟩] none "Record", none⟩,
    ⟨.scalar .string, none⟩, ⟨.union [4, 5], none⟩,
    ⟨.object [⟨"next", 3, false, []⟩] none "Child", none⟩, ⟨.null, none⟩]⟩

theorem recordGraph_plain : recordGraph.Plain 0 := by
  refine Graph.plain_of_rank (· < 6) (fun t => if t = 0 ∨ t = 3 then 1 else 0)
    (by decide) ?_ ?_ ?_
  · intro t known
    rcases t with _ | _ | _ | _ | _ | _ | t
    · trivial
    · exact ⟨by decide, by simp⟩
    · trivial
    · trivial
    · exact ⟨by decide, by simp⟩
    · trivial
    · exact absurd known (Nat.not_lt.2 (Nat.le_add_left 6 t))
  · intro t known
    rcases t with _ | _ | _ | _ | _ | _ | t
    · decide
    · decide
    · decide
    · decide
    · decide
    · decide
    · exact absurd known (Nat.not_lt.2 (Nat.le_add_left 6 t))
  · rintro t u known ⟨bare, part⟩
    rcases t with _ | _ | _ | _ | _ | _ | t
    · revert u
      decide
    · exact nomatch bare
    · exact nomatch part
    · revert u
      decide
    · exact nomatch bare
    · exact nomatch part
    · exact absurd known (Nat.not_lt.2 (Nat.le_add_left 6 t))

/-- One record with two children. -/
def twoChildren : Json :=
  .arr [.obj [("$id", .str "x"), ("child", .obj [("next", .obj [("next", .null)])])]]

theorem inhabits_twoChildren : Inhabits recordGraph 0 twoChildren := by
  have noChild : Inhabits recordGraph 3 .null :=
    .union rfl (List.mem_cons_of_mem _ (List.mem_singleton_self _)) (.null rfl)
  have child {v : Json} (next : Inhabits recordGraph 3 v) :
      Inhabits recordGraph 3 (.obj [("next", v)]) := by
    refine .union rfl (List.mem_cons_self ..) (.object rfl ?_ ?_ ?_ ?_)
    · simp [Table.has, Table.get?]
    · simp [Table.get?, next]
    · simp [declaredNames]
    · simp [declaredNames]
  refine .array rfl fun item member => ?_
  rw [List.mem_singleton.1 member]
  refine .object rfl ?_ ?_ ?_ ?_
  · simp [Table.has, Table.get?]
  · have identifier : Inhabits recordGraph 2 (.str "x") := .scalar rfl rfl
    simp [Table.get?, identifier, child (child noChild)]
  · simp [declaredNames]
  · simp [declaredNames]

theorem stuck_twoChildren : Stuck recordGraph [] [] 0 twoChildren := by
  have isBroken : Broken recordGraph [⟨1, [.items], .property "child"⟩]
      [.items, .property "child", .branch 0] :=
    .inl ⟨_, List.mem_singleton_self _, "child", rfl, rfl, _, _, _, rfl, List.mem_cons_self ..⟩
  refine .items rfl (List.mem_singleton_self _) ?_
  refine .property (p := ⟨"child", 3, false, []⟩) rfl (by decide) (by simp) rfl ?_
  refine .branch (i := 0) rfl rfl rfl (fun j w lt => absurd lt (Nat.not_lt_zero j)) ?_
  refine .property (p := ⟨"next", 3, false, []⟩) rfl (by decide) (by simp) rfl ?_
  refine .branch (i := 0) rfl rfl rfl (fun j w lt => absurd lt (Nat.not_lt_zero j)) ?_
  exact Stuck.lost (k := 1)
    (f := ⟨4, [.items, .property "child", .branch 0], .property "next"⟩) rfl rfl isBroken

/-- **A value may inhabit a plain type and yet have no verdict.** -/
theorem recordGraph_validation :
    recordGraph.Plain 0 ∧ ∃ S, recordGraph.compile 0 [] [] = .ok S ∧
      Inhabits recordGraph 0 twoChildren ∧ ∃ fault, violations S twoChildren = .error fault := by
  obtain ⟨S, compiled, judged⟩ := recordGraph_plain.validation
  exact ⟨recordGraph_plain, S, compiled, inhabits_twoChildren,
    (judged twoChildren).1.2 stuck_twoChildren⟩

end RouteContract.Shape
