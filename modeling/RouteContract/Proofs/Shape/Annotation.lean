import Mathlib
import RouteContract.Proofs.Schema.Merge
import RouteContract.Proofs.Shape.Call
import RouteContract.Proofs.Shape.Intersection
import RouteContract.Proofs.Shape.Union

/-!
# Annotations

The annotations of a property are written before the keywords that were compiled for its type. The
schema of a type is a reference when the type is an object type that is being expanded, and consists
of other keywords in every other case (`keywords_of_compile`). So annotations that are assertions
are asked of the values of a property together with its type, but for a property whose type comes
back inside itself: its schema is the reference, beside which annotations do not count
(`Graph.annotations_conjoin`).
-/

set_option autoImplicit false

namespace RouteContract.Shape

open RouteContract Pointer Schema

variable {g : Graph} {visited : Visited} {path : List String} {t : TypeId}
  {scope : Scope} {hops : Nat} {base : String} {s v : Json}

/-! ## The keywords of compiled schemas -/

/-- The keywords that schemas of types are compiled to, but for references. -/
def compiledKeywords : List String :=
  ["type", "enum", "items", "additionalProperties", "required", "properties", "anyOf"]

theorem isPlainKeyword_of_compiled {key : String} (compiled : key ∈ compiledKeywords) :
    IsPlainKeyword key := by
  have all : ∀ key ∈ compiledKeywords, IsPlainKeyword key := by decide
  exact all key compiled

theorem keywords_objectSchema {additional : Json} {required : List String} {properties : Table Json}
    {members : List (String × Json)}
    (form : objectSchema additional required properties = .obj members) :
    ∀ key ∈ Table.keys members, key ∈ compiledKeywords := by
  rw [objectSchema, Json.obj.injEq] at form
  subst form
  cases required.isEmpty <;> cases properties.isEmpty <;> simp [Table.keys, compiledKeywords]

theorem keywords_put {done : Table Json} (known : ∀ key ∈ Table.keys done, key ∈ compiledKeywords)
    {name : String} (listed : name ∈ compiledKeywords) (value : Json) :
    ∀ key ∈ Table.keys (Table.put done name value), key ∈ compiledKeywords := by
  intro key mem
  rcases Table.mem_keys_put.1 mem with rfl | mem
  · exact listed
  · exact known key mem

theorem keywords_intersectWith {done : Table Json}
    (known : ∀ key ∈ Table.keys done, key ∈ compiledKeywords) (schema : Json) :
    ∀ key ∈ Table.keys (intersectWith done schema), key ∈ compiledKeywords := by
  have others : ∀ key ∈ Table.keys (putAdditional done (schema.members?.getD [])),
      key ∈ compiledKeywords := by
    rw [putAdditional]
    split
    · exact known
    · exact known
    · exact known
    · exact keywords_put known (by decide) _
  rw [intersectWith_eq]
  dsimp only
  split <;> split
  · exact others
  · exact keywords_put others (by decide) _
  · exact keywords_put others (by decide) _
  · exact keywords_put (keywords_put others (by decide) _) (by decide) _

theorem keywords_foldl_intersectWith (schemas : List Json) {done : Table Json}
    (known : ∀ key ∈ Table.keys done, key ∈ compiledKeywords) :
    ∀ key ∈ Table.keys (schemas.foldl intersectWith done), key ∈ compiledKeywords := by
  induction schemas generalizing done with
  | nil => exact known
  | cons s rest ih => exact ih (keywords_intersectWith known s)

/-- **The schema of a type is a reference or has none**: it is one when the type is an object type
that is being expanded, and consists of other keywords otherwise. -/
theorem keywords_of_compile (compiled : g.compile t path visited = .ok s) :
    (g.isMetAgain ⟨visited, path, t⟩ = true ∧ ∃ ref, s = .obj [("$ref", .str ref)]) ∨
      g.isMetAgain ⟨visited, path, t⟩ = false ∧ ∃ members, s = .obj members ∧
        ∀ key ∈ Table.keys members, key ∈ compiledKeywords := by
  have expands := expands_of_compile compiled
  rw [Expands] at expands
  rw [Graph.isMetAgain, Graph.isObject]
  cases shape : g.shape t with
  | object properties index name =>
      simp only [shape, ExpandsObject] at expands
      rw [← List.isSome_find?]
      cases entered : visited.find? (·.type == t) with
      | some entry =>
          simp only [entered] at expands
          exact .inl ⟨rfl, _, expands⟩
      | none =>
          simp only [entered] at expands
          obtain ⟨schemas, additional, -, -, form⟩ := expands
          exact .inr ⟨rfl, _, form, keywords_objectSchema rfl⟩
  | scalar kind | literal kind value =>
      simp only [shape] at expands
      exact .inr ⟨rfl, _, expands, by simp [Table.keys, compiledKeywords]⟩
  | null | any =>
      simp only [shape] at expands
      exact .inr ⟨rfl, _, expands, by simp [Table.keys, compiledKeywords]⟩
  | array | tuple =>
      simp only [shape] at expands
      obtain ⟨items, -, form⟩ := expands
      exact .inr ⟨rfl, _, form, by simp [Table.keys, compiledKeywords]⟩
  | enumeration values name =>
      simp only [shape] at expands
      cases values with
      | nil => exact .inr ⟨rfl, _, expands, by simp [Table.keys]⟩
      | cons first rest => exact .inr ⟨rfl, _, expands, by simp [Table.keys, compiledKeywords]⟩
  | union members =>
      simp only [shape, ExpandsUnion] at expands
      split at expands
      · obtain ⟨values, -, form⟩ := expands
        exact .inr ⟨rfl, _, form, by simp [Table.keys, compiledKeywords]⟩
      · obtain ⟨schemas, -, form⟩ := expands
        exact .inr ⟨rfl, _, form, by simp [Table.keys, compiledKeywords]⟩
  | intersection members =>
      simp only [shape] at expands
      obtain ⟨schemas, -, form⟩ := expands
      exact .inr ⟨rfl, _, form, keywords_foldl_intersectWith schemas
        (by simp [closedObject, Table.keys, compiledKeywords])⟩
  | undescribed | bare => simp only [shape] at expands

/-! ## Annotations under a schema -/

/-- The assertions that annotations may consist of. -/
def annotationKeywords : List String :=
  ["minimum", "maximum", "exclusiveMinimum", "exclusiveMaximum", "multipleOf", "minLength",
    "maxLength", "pattern", "minItems", "maxItems", "uniqueItems", "minProperties",
    "maxProperties", "const", "enum"]

/-- A property is annotated with assertions only. -/
def Property.IsAsserted (p : Property) : Prop :=
  (Table.keys p.annotations).Nodup ∧
    ∀ key ∈ Table.keys p.annotations, key ∈ annotationKeywords

instance (p : Property) : Decidable p.IsAsserted := inferInstanceAs (Decidable (_ ∧ _))

/-- A property and its type do not both list values. -/
def Property.ListsOnce (p : Property) (s : Json) : Prop :=
  Table.has p.annotations "enum" = true → s.child? (.key "enum") = none

namespace Property.IsAsserted

variable {p : Property} (asserted : p.IsAsserted)
include asserted

theorem ofKeyword?_isSome : ∀ key ∈ Table.keys p.annotations,
    (Assertion.ofKeyword? key).isSome = true := by
  have all : ∀ key ∈ annotationKeywords, (Assertion.ofKeyword? key).isSome = true := by decide
  exact fun key listed => all key (asserted.2 key listed)

theorem get?_eq_none {key : String} (other : key ∉ annotationKeywords) :
    Table.get? p.annotations key = none :=
  Table.get?_eq_none_iff.2 fun listed => other (asserted.2 key listed)

theorem isIgnored_eq_false : p.isIgnored = false := by
  rw [Property.isIgnored, Table.has, asserted.get?_eq_none (by decide)]
  rfl

theorem isSelfTyped_eq_false : p.isSelfTyped = false := by
  rw [Property.isSelfTyped, Table.has, asserted.get?_eq_none (by decide)]
  rfl

/-- Annotations stand before keywords with which they have no name in common, but for the list of
values, which only one of the two may have. -/
theorem annotated_eq {members : List (String × Json)} (distinct : (Table.keys members).Nodup)
    (common : ∀ key ∈ Table.keys members, key ∈ annotationKeywords → key = "enum")
    (once : p.ListsOnce (.obj members)) :
    annotated p.annotations (.obj members) = .obj (p.annotations ++ members) := by
  refine congrArg Json.obj (Table.putAll_eq_append ?_)
  rw [Table.keys, List.map_append, List.nodup_append]
  refine ⟨asserted.1, distinct, ?_⟩
  rintro key noted _ listed rfl
  obtain rfl := common key listed (asserted.2 key noted)
  have unlisted := once ((Table.has_iff_mem_keys ..).2 noted)
  rw [Json.child?_obj_key] at unlisted
  exact Table.get?_eq_none_iff.1 unlisted listed

end Property.IsAsserted

/-- Annotations under the schema of a type are asked together with it, but beside a reference. -/
theorem annotated_conjoins {p : Property} (asserted : p.IsAsserted)
    (compiled : g.compile t path visited = .ok s) (once : p.ListsOnce s) (scope : Scope)
    (hops : Nat) (base : String) (v : Json) :
    (Completes scope hops base (annotated p.annotations s) v ↔
      Completes scope hops base s v ∧
        (g.isMetAgain ⟨visited, path, t⟩ = false →
          Completes scope hops base (.obj p.annotations) v)) ∧
      (Validates scope hops base (annotated p.annotations s) v ↔
        Validates scope hops base s v ∧
          (g.isMetAgain ⟨visited, path, t⟩ = false →
            Validates scope hops base (.obj p.annotations) v)) := by
  have noted : IsUnnamed p.annotations :=
    ⟨asserted.get?_eq_none (by decide), asserted.get?_eq_none (by decide)⟩
  obtain ⟨members, rfl, distinct⟩ := isSchema_of_compile compiled
  rcases keywords_of_compile compiled with ⟨again, ref, form⟩ | ⟨new, members', form, known⟩
  · obtain rfl : members = [("$ref", .str ref)] := Json.obj.inj form
    have referring : IsUnnamed [("$ref", .str ref)] := ⟨rfl, rfl⟩
    have both := noted.append referring
    rw [asserted.annotated_eq distinct (by simp [Table.keys, annotationKeywords]) once,
      completes_obj_iff both, validates_obj_iff both,
      applyAll_beside_reference (asserted.get?_eq_none (by decide)) ref,
      completes_obj_iff referring, validates_obj_iff referring, again]
    simp
  · obtain rfl : members = members' := Json.obj.inj form
    have plain : ∀ key ∈ Table.keys members, IsPlainKeyword key := fun key listed =>
      isPlainKeyword_of_compiled (known key listed)
    have typed : IsUnnamed members :=
      ⟨get?_eq_none_of_plain plain (by decide), get?_eq_none_of_plain plain (by decide)⟩
    have both := noted.append typed
    have common : ∀ key ∈ compiledKeywords, key ∈ annotationKeywords → key = "enum" := by decide
    rw [asserted.annotated_eq distinct (fun key listed => common key (known key listed)) once,
      completes_obj_iff both, validates_obj_iff both,
      applyAll_append_completes_iff asserted.ofKeyword?_isSome plain,
      applyAll_append_eq_nil_iff asserted.ofKeyword?_isSome plain,
      completes_obj_iff noted, validates_obj_iff noted, completes_obj_iff typed,
      validates_obj_iff typed, new]
    simp only [forall_const]
    exact ⟨and_comm, and_comm⟩

/-! ## Annotated properties -/

/-- The call that compiles the type of a property of an object type. -/
def Property.call (p : Property) (t : TypeId) (path : List String) (visited : Visited) : Call :=
  ⟨enter visited t path, path ++ ["properties", p.name], p.type⟩

/-- **The schema of an annotated property** stands under its name. In every document it completes
where the schema of the type does and the annotations do, and validates what both of them validate;
but where the type is an object type that is being expanded, the annotations are passed over. -/
theorem Graph.annotations_conjoin {properties : List Property} {index : Option TypeId}
    {name : String} (shape : g.shape t = .object properties index name)
    (new : visited.any (·.type == t) = false) (distinct : (declaredNames properties).Nodup)
    {S : Json} (compiled : g.compile t path visited = .ok S) {p : Property}
    (declared : p ∈ properties) (asserted : p.IsAsserted) :
    ∃ s emitted,
      g.compile p.type (p.call t path visited).path (p.call t path visited).visited = .ok s ∧
      S.at? [.key "properties", .key p.name] = some emitted ∧
      (p.ListsOnce s → ∀ scope hops base v,
        (Completes scope hops base emitted v ↔
          Completes scope hops base s v ∧
            (g.isMetAgain (p.call t path visited) = false →
              Completes scope hops base (.obj p.annotations) v)) ∧
          (Validates scope hops base emitted v ↔
            Validates scope hops base s v ∧
              (g.isMetAgain (p.call t path visited) = false →
                Validates scope hops base (.obj p.annotations) v))) := by
  have entered : visited.find? (·.type == t) = none := by
    rwa [← Option.isNone_iff_eq_none, ← Option.isSome_eq_false_iff, List.isSome_find?]
  have expands := expands_of_compile compiled
  simp only [Expands, shape, ExpandsObject, entered] at expands
  obtain ⟨schemas, additional, ⟨length, each⟩, -, rfl⟩ := expands
  obtain ⟨i, found, later⟩ := prevails_of_nodup distinct declared asserted.isIgnored_eq_false
  obtain ⟨s, hs⟩ := getElem?_of_length_eq length found
  have typed := asserted.isSelfTyped_eq_false
  have part := each i p s found hs typed
  have standing := get?_propertyEntries found later hs
  have nonempty : Table.ofList (propertyEntries properties schemas) ≠ [] := by
    intro empty
    rw [empty] at standing
    cases standing
  refine ⟨s, annotated p.annotations s, part, ?_, annotated_conjoins asserted part⟩
  rw [Json.at?_cons, child?_objectSchema_properties _ _ nonempty, Option.bind_some, Json.at?_cons,
    Json.child?_obj_key, standing, Property.fragment, typed]
  rfl

/-- Chapters of a book: the next one, which may not be empty, and at least one tag. -/
def chapterGraph : Graph :=
  ⟨#[⟨.object [⟨"next", 0, true, [("minProperties", .int 1)]⟩,
      ⟨"tags", 1, true, [("minItems", .int 1)]⟩] none "Chapter", none⟩,
    ⟨.array 2, none⟩, ⟨.scalar .string, none⟩]⟩

/-- What the properties of a chapter are compiled to. -/
def chapterProperties : Table Json :=
  [("next", .obj [("minProperties", .int 1), ("$ref", .str "#")]),
    ("tags", .obj [("minItems", .int 1), ("type", .str "array"),
      ("items", .obj [("type", .str "string")])])]

/-- What a chapter is compiled to. -/
def chapterSchema : Json :=
  .obj [("type", .str "object"), ("additionalProperties", .bool false),
    ("properties", .obj chapterProperties)]

/-- Chapters may be empty where they are referred to. -/
theorem chapterReference_validates :
    Validates ⟨chapterSchema, ""⟩ (Scope.chainLimit ⟨chapterSchema, ""⟩) ""
      (.obj [("$ref", .str "#")]) (.obj []) := by
  have limit : Scope.chainLimit ⟨chapterSchema, ""⟩ = 23 + 1 := by cbv
  have found : Scope.lookup ⟨chapterSchema, ""⟩ "" "#" = .ok (chapterSchema, "") := by cbv
  have form : objectSchema (.bool false) [] chapterProperties = chapterSchema := rfl
  have verdict : Decides _ _
      (applyAll .draft7 .draft7 ⟨chapterSchema, ""⟩ 23 false "" _ (.obj [])) :=
    decides_objectSchema form (fun hx => decides_additional_closed rfl rfl hx)
      (fun hx => decides_properties (fun _ _ => False) (fun _ _ => True) hx
        fun _ _ _ absent => (Option.some_ne_none _ absent.symm).elim)
      fun empty => (List.cons_ne_nil _ _ empty).elim
  rw [limit]
  refine (validates_of_decides ⟨rfl, rfl⟩ (decides_reference found rfl verdict) ?_).2 ?_
  · simp [Json.isWritable, TypeName.admits]
  · exact ⟨rfl, rfl, fun _ _ name absent => (List.not_mem_nil absent).elim, fun _ _ _ _ => trivial⟩

/-- **An empty chapter may come next**, in spite of what is annotated, and a chapter without tags is
refused. -/
theorem chapterGraph_annotations :
    chapterGraph.compile 0 [] [] = .ok chapterSchema ∧
      (∃ next, chapterSchema.at? [.key "properties", .key "next"] = some next ∧
        Validates ⟨chapterSchema, ""⟩ (Scope.chainLimit ⟨chapterSchema, ""⟩) "" next (.obj []) ∧
        ¬ Validates ⟨chapterSchema, ""⟩ (Scope.chainLimit ⟨chapterSchema, ""⟩) ""
          (.obj [("minProperties", .int 1)]) (.obj [])) ∧
      ∃ tags, chapterSchema.at? [.key "properties", .key "tags"] = some tags ∧
        ¬ Validates ⟨chapterSchema, ""⟩ (Scope.chainLimit ⟨chapterSchema, ""⟩) "" tags
          (.arr []) := by
  have compiled : chapterGraph.compile 0 [] [] = .ok chapterSchema := by cbv
  have distinct : (declaredNames [⟨"next", 0, true, [("minProperties", .int 1)]⟩,
      ⟨"tags", 1, true, [("minItems", .int 1)]⟩]).Nodup := by decide
  have reference : chapterGraph.compile 0 ["properties", "next"] [⟨0, []⟩] =
      .ok (.obj [("$ref", .str "#")]) := by cbv
  refine ⟨compiled, ?_, ?_⟩
  · obtain ⟨s, next, part, standing, conjoins⟩ :=
      chapterGraph.annotations_conjoin rfl rfl distinct compiled (List.mem_cons_self ..)
        (by decide)
    obtain rfl := Except.ok.inj (part.symm.trans reference)
    refine ⟨next, standing, ?_, ?_⟩
    · have once := conjoins (fun listed => absurd listed (by decide))
      exact (once _ _ _ _).2.2 ⟨chapterReference_validates, fun new => absurd new (by decide)⟩
    · rw [validates_obj_iff ⟨rfl, rfl⟩]
      cbv
      rintro ⟨⟩
  · obtain ⟨s, tags, -, standing, conjoins⟩ :=
      chapterGraph.annotations_conjoin rfl rfl distinct compiled
        (List.mem_cons_of_mem _ (List.mem_cons_self ..)) (by decide)
    refine ⟨tags, standing, fun valid => ?_⟩
    have once := conjoins (fun listed => absurd listed (by decide))
    have asked := ((once _ _ _ _).2.1 valid).2 rfl
    have refused : ¬ Validates ⟨chapterSchema, ""⟩ (Scope.chainLimit ⟨chapterSchema, ""⟩) ""
        (.obj [("minItems", .int 1)]) (.arr []) := by
      rw [validates_obj_iff ⟨rfl, rfl⟩]
      cbv
      rintro ⟨⟩
    exact refused asked

end RouteContract.Shape
