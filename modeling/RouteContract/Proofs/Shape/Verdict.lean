import RouteContract.Proofs.Schema.Keyword
import RouteContract.Proofs.Shape.LiteralUnion

/-!
# What compiled schemas decide

A compiled schema has one of a few forms. For each form, what it decides about a value is put
together here from its keywords. A form that refuses a value gets stuck if its message is to show
the value, or values that it lists, and these have no text.
-/

set_option autoImplicit false

namespace RouteContract.Shape

open RouteContract Pointer Schema

variable {scope : Scope} {hops : Nat} {base : String} {v : Json} {stuck holds : Prop}

/-! ## Scalars -/

/-- The type that a schema names for a kind. -/
def ScalarKind.typeName : ScalarKind → TypeName
  | .number => .number
  | .string => .string
  | .boolean => .boolean

theorem ofText?_name (kind : ScalarKind) : TypeName.ofText? kind.name = some kind.typeName := by
  cases kind <;> rfl

theorem admits_typeName (kind : ScalarKind) (v : Json) :
    kind.typeName.admits v = kind.admits v := by
  cases kind <;> cases v <;> rfl

theorem decides_typed {name : String} {type : TypeName}
    (named : TypeName.ofText? name = some type) :
    Decides (type.admits v = false ∧ v.isWritable = false) (type.admits v = true)
      (applyAll .draft7 .draft7 scope hops false base [("type", .str name)] v) := by
  refine decides_applyAll (activeKeywords_eq_self rfl) ?_
  refine Decides.congr (decides_collect_cons (decides_type named _) decides_collect_nil)
    (by simp) fun _ => ?_
  rw [and_true]

theorem decides_scalar (kind : ScalarKind) :
    Decides (kind.admits v = false ∧ v.isWritable = false) (kind.admits v = true)
      (applyAll .draft7 .draft7 scope hops false base [("type", .str kind.name)] v) := by
  rw [← admits_typeName]
  exact decides_typed (ofText?_name kind)

/-- A value counts that is of a kind and equals one of the values that are listed under it. -/
theorem decides_kindAndList (kind : ScalarKind) {values : List Json} :
    Decides
      (kind.admits v = false ∧ v.isWritable = false ∨
        (¬ ∃ value ∈ values, Json.equal value v = true) ∧
          (v.isWritable && (Json.arr values).isWritable) = false)
      (kind.admits v = true ∧ ∃ value ∈ values, Json.equal value v = true)
      (applyAll .draft7 .draft7 scope hops false base
        [("type", .str kind.name), ("enum", .arr values)] v) := by
  rw [← admits_typeName]
  refine decides_applyAll (activeKeywords_eq_self rfl) ?_
  refine Decides.congr (decides_collect_cons (decides_type (ofText?_name kind) _)
    (decides_collect_cons (decides_enum _) decides_collect_nil)) (by rw [or_false]) fun _ => ?_
  rw [and_true]

/-- Values of a kind, listed under that kind, are what counts. -/
theorem decides_listed (kind : ScalarKind) {values : List Json}
    (admitted : ∀ value ∈ values, kind.admits value = true) :
    Decides
      ((¬ ∃ value ∈ values, Json.equal value v = true) ∧
        (v.isWritable && (Json.arr values).isWritable) = false)
      (∃ value ∈ values, Json.equal value v = true)
      (applyAll .draft7 .draft7 scope hops false base
        [("type", .str kind.name), ("enum", .arr values)] v) := by
  have ofKind : (∃ value ∈ values, Json.equal value v = true) → kind.admits v = true := by
    rintro ⟨value, member, same⟩
    exact kind.admits_of_equal (admitted value member) same
  refine (decides_kindAndList kind).congr (or_iff_right_of_imp ?_) fun _ =>
    and_iff_right_of_imp ofKind
  rintro ⟨other, unwritten⟩
  exact ⟨fun listed => Bool.false_ne_true (other.symm.trans (ofKind listed)),
    by rw [unwritten, Bool.false_and]⟩

theorem exists_equal_bool_iff {bs : List Bool} :
    (∃ value ∈ bs.map Json.bool, Json.equal value v = true) ↔ ∃ b ∈ bs, v = .bool b := by
  simp only [List.mem_map, exists_exists_and_eq_and, Json.equal_bool_iff]

/-- A list of booleans that all have one value. -/
theorem exists_mem_iff_of_forall_eq {bs : List Bool} (nonempty : bs ≠ []) {b : Bool}
    (all : ∀ c ∈ bs, c = b) : (∃ c ∈ bs, v = .bool c) ↔ ∃ c ∈ [b], v = .bool c := by
  obtain ⟨first, member⟩ := List.exists_mem_of_ne_nil bs nonempty
  constructor
  · rintro ⟨c, listed, same⟩
    exact ⟨b, List.mem_singleton_self b, all c listed ▸ same⟩
  · rintro ⟨c, listed, same⟩
    rw [List.mem_singleton.1 listed] at same
    exact ⟨first, member, (all first member).symm ▸ same⟩

theorem map_bool_isVoid {values : List Json}
    (booleans : ∀ value ∈ values, ScalarKind.boolean.admits value = true) :
    (values.map fun value => !value.isVoid).map Json.bool = values := by
  rw [List.map_map]
  refine (List.map_congr_left fun value member => ?_).trans (List.map_id values)
  obtain ⟨b, rfl⟩ := admits_boolean_iff.1 (booleans value member)
  exact congrArg Json.bool (Bool.not_not b)

theorem isUnnamed_booleanBranch {values : List Json} {members : List (String × Json)}
    (branch : booleanBranch values = .obj members) : IsUnnamed members := by
  simp only [booleanBranch, Json.obj.injEq] at branch
  subst branch
  split
  · exact ⟨rfl, rfl⟩
  · split <;> exact ⟨rfl, rfl⟩

/-- The branch of boolean literals admits the values of the literals. -/
theorem decides_booleanBranch {values : List Json} {members : List (String × Json)}
    (nonempty : values ≠ [])
    (booleans : ∀ value ∈ values, ScalarKind.boolean.admits value = true)
    (branch : booleanBranch values = .obj members) :
    Decides ((¬ ∃ value ∈ values, Json.equal value v = true) ∧ v.isWritable = false)
      (∃ value ∈ values, Json.equal value v = true)
      (applyAll .draft7 .draft7 scope hops false base members v) := by
  have listed (b : Bool) : Decides ((¬ ∃ c ∈ [b], v = .bool c) ∧ v.isWritable = false)
      (∃ c ∈ [b], v = .bool c)
      (applyAll .draft7 .draft7 scope hops false base
        [("type", .str "boolean"), ("enum", .arr [.bool b])] v) := by
    have written : (Json.arr [.bool b]).isWritable = true := rfl
    have means : (∃ value ∈ [b].map Json.bool, Json.equal value v = true) ↔
        ∃ c ∈ [b], v = .bool c := exists_equal_bool_iff
    refine (decides_listed .boolean
      (by simp [ScalarKind.admits] : ∀ c ∈ [b].map Json.bool, _)).congr ?_ fun _ => means
    rw [← means]
    simp [written]
  rw [← map_bool_isVoid booleans, exists_equal_bool_iff]
  simp only [booleanBranch, Json.obj.injEq] at branch
  have someTruth : values.map (fun value => !value.isVoid) ≠ [] := by simpa using nonempty
  generalize values.map (fun value => !value.isVoid) = bs at branch someTruth ⊢
  subst branch
  split
  · next all =>
      rw [exists_mem_iff_of_forall_eq someTruth
        fun c member => List.all_eq_true.1 all c member]
      exact listed true
  · split
    · next all =>
        rw [exists_mem_iff_of_forall_eq (b := false) someTruth
          fun c member => Bool.not_eq_true' .. ▸ List.all_eq_true.1 all c member]
        exact listed false
    · next someFalse someTrue =>
        have means : ScalarKind.boolean.admits v = true ↔ ∃ b ∈ bs, v = .bool b := by
          simp only [List.all_eq_true, not_forall, id_eq, Bool.not_eq_true, Bool.not_eq_true',
            Bool.not_eq_false, exists_prop] at someFalse someTrue
          obtain ⟨b, hb, rfl⟩ := someFalse
          obtain ⟨c, hc, rfl⟩ := someTrue
          rw [admits_boolean_iff]
          constructor
          · rintro ⟨d, rfl⟩
            cases d
            · exact ⟨false, hb, rfl⟩
            · exact ⟨true, hc, rfl⟩
          · rintro ⟨d, -, rfl⟩
            exact ⟨d, rfl⟩
        rw [← means, Bool.not_eq_true]
        exact decides_scalar .boolean

/-! ## Unions -/

section Unions

variable {g : Graph} {members : List TypeId}

/-- A union that became one enumeration admits the values of its members. -/
theorem decides_collapsed (fits : ∀ m ∈ members, g.FitsKind m) {kind : ScalarKind}
    (collapsed : g.collapsed? members = some kind) {values : List Json}
    (ordered : orderedValues (members.map g.literalValue) = .ok values) :
    Decides
      ((¬ ∃ m ∈ members, Json.equal (g.literalValue m) v = true) ∧
        (v.isWritable && (Json.arr values).isWritable) = false)
      (∃ m ∈ members, Json.equal (g.literalValue m) v = true)
      (applyAll .draft7 .draft7 scope hops false base
        [("type", .str kind.name), ("enum", .arr values)] v) := by
  have admitted := admits_collapsed fits collapsed
  obtain ⟨values', success, same⟩ :=
    orderedValues_homogeneous (homogeneous_of_collapsed fits collapsed)
  rw [ordered, Except.ok.injEq] at success
  subst success
  have means : (∃ value ∈ values, Json.equal value v = true) ↔
      ∃ m ∈ members, Json.equal (g.literalValue m) v = true := by
    rw [same]
    simp only [List.mem_map, exists_exists_and_eq_and]
  rw [← means]
  exact decides_listed _ fun value member =>
    admitted value (mem_of_mem_orderedValues ordered member)

theorem length_folded_pos {m : TypeId} (member : m ∈ members)
    (literal : g.isLiteral .boolean m = true) : 0 < (g.folded members).length := by
  have listed : m ∈ members.filter (g.isLiteral .boolean) := List.mem_filter.2 ⟨member, literal⟩
  rw [Graph.folded]
  split
  · next empty =>
      rw [List.isEmpty_iff] at empty
      rw [empty] at listed
      exact absurd listed List.not_mem_nil
  · exact Nat.one_pos

/-- A value is that of a boolean literal among the members of a union. -/
def IsFolded (g : Graph) (members : List TypeId) (v : Json) : Prop :=
  ∃ m ∈ members, g.isLiteral .boolean m = true ∧ Json.equal (g.literalValue m) v = true

/-- The branch of the boolean literals of a union. -/
theorem decides_folded (fits : ∀ m ∈ members, g.FitsKind m) {sub : Json}
    (listed : sub ∈ g.folded members) :
    Decides (¬ IsFolded g members v ∧ v.isWritable = false) (IsFolded g members v)
      (descend .draft7 scope hops false base none none sub v) := by
  rw [Graph.folded] at listed
  split at listed
  · exact absurd listed List.not_mem_nil
  · next nonempty =>
      have booleans : ∀ value ∈ (members.filter (g.isLiteral .boolean)).map g.literalValue,
          ScalarKind.boolean.admits value = true := by
        intro value literal
        obtain ⟨m, kept, rfl⟩ := List.mem_map.1 literal
        obtain ⟨member, literal⟩ := List.mem_filter.1 kept
        exact (fits m member).admits_literalValue literal
      have someLiteral : (members.filter (g.isLiteral .boolean)).map g.literalValue ≠ [] := by
        simpa using nonempty
      have means : (∃ value ∈ (members.filter (g.isLiteral .boolean)).map g.literalValue,
          Json.equal value v = true) ↔ IsFolded g members v := by
        rw [IsFolded]
        simp only [List.mem_map, exists_exists_and_eq_and]
        simp only [List.mem_filter, and_assoc]
      rw [List.mem_singleton.1 listed, ← means]
      exact decides_descend (isUnnamed_booleanBranch rfl)
        (decides_booleanBranch someLiteral booleans rfl)

/-- **A union of branches** is stuck when a branch is before which no other one holds, and holds when
a branch does or a boolean literal among its members has the value. When none does, it is stuck if
the value has no text. -/
theorem decides_branches (fits : ∀ m ∈ members, g.FitsKind m) {schemas : List Json}
    (stuck holds : Nat → Prop)
    (each : ∀ (i : Nat) (s : Json), schemas[i]? = some s →
      Decides (stuck i) (holds i) (descend .draft7 scope hops false base none none s v)) :
    Decides
      ((∃ i < schemas.length, stuck i ∧ ∀ j < i, ¬ holds j) ∨
        ¬ ((∃ i < schemas.length, holds i) ∨ IsFolded g members v) ∧ v.isWritable = false)
      ((∃ i < schemas.length, holds i) ∨ IsFolded g members v)
      (applyAll .draft7 .draft7 scope hops false base
        [("anyOf", .arr (schemas ++ g.folded members))] v) := by
  have means : (∃ i < (schemas ++ g.folded members).length, i < schemas.length ∧ holds i ∨
        schemas.length ≤ i ∧ IsFolded g members v) ↔
      (∃ i < schemas.length, holds i) ∨ IsFolded g members v := by
    constructor
    · rintro ⟨i, -, ⟨lt, h⟩ | ⟨-, h⟩⟩
      · exact .inl ⟨i, lt, h⟩
      · exact .inr h
    · rintro (⟨i, lt, h⟩ | ⟨m, member, literal, same⟩)
      · exact ⟨i, by rw [List.length_append]; omega, .inl ⟨lt, h⟩⟩
      · have folded := length_folded_pos member literal
        exact ⟨schemas.length, by rw [List.length_append]; omega,
          .inr ⟨Nat.le_refl _, m, member, literal, same⟩⟩
  refine decides_applyAll (activeKeywords_eq_self rfl) ?_
  refine Decides.congr (decides_collect_cons (decides_anyOf
    (fun i => i < schemas.length ∧ stuck i ∨
      schemas.length ≤ i ∧ ¬ IsFolded g members v ∧ v.isWritable = false)
    (fun i => i < schemas.length ∧ holds i ∨ schemas.length ≤ i ∧ IsFolded g members v) _
    fun i sub found => ?_) decides_collect_nil) ?_ fun _ => ?_
  · rcases Nat.lt_or_ge i schemas.length with lt | ge
    · rw [List.getElem?_append_left lt] at found
      refine (each i sub found).congr ?_ fun _ => ?_
      · simp [lt, Nat.not_le.2 lt]
      · simp [lt, Nat.not_le.2 lt]
    · rw [List.getElem?_append_right ge] at found
      have beyond := Nat.not_lt.2 ge
      refine (decides_folded fits (List.mem_of_getElem? found)).congr ?_ fun _ => ?_
      · simp [beyond, Nat.not_lt.1 beyond]
      · simp [beyond, Nat.not_lt.1 beyond]
  · rw [or_false, means]
    constructor
    · rintro (⟨i, -, ⟨lt, isStuck⟩ | ⟨beyond, other, unwritten⟩, earlier⟩ | refused)
      · exact .inl ⟨i, lt, isStuck, fun j before h => earlier j before (.inl ⟨by omega, h⟩)⟩
      · refine .inr ⟨?_, unwritten⟩
        rintro (⟨j, lt, h⟩ | folded)
        · exact earlier j (by omega) (.inl ⟨lt, h⟩)
        · exact other folded
      · exact .inr refused
    · rintro (⟨i, lt, isStuck, earlier⟩ | refused)
      · refine .inl ⟨i, by rw [List.length_append]; omega, .inl ⟨lt, isStuck⟩, fun j before => ?_⟩
        rintro (⟨-, h⟩ | ⟨beyond, -⟩)
        · exact earlier j before h
        · omega
      · exact .inr refused
  · rw [and_true]
    exact means

end Unions

/-! ## Arrays -/

theorem admits_array_iff : TypeName.array.admits v = true ↔ ∃ items, v = .arr items := by
  cases v <;> simp [TypeName.admits]

theorem admits_object_iff : TypeName.object.admits v = true ↔ ∃ members, v = .obj members := by
  cases v <;> simp [TypeName.admits]

/-- What the schema of an array says about items. -/
theorem decides_arraySchema {items : Json}
    (below : ∀ hx, Decides stuck holds (applyKeyword .draft7 scope hops false base
      [("type", .str "array"), ("items", items)] "items" items hx v)) :
    Decides ((¬ ∃ values, v = .arr values) ∧ v.isWritable = false ∨ stuck)
      ((∃ values, v = .arr values) ∧ holds)
      (applyAll .draft7 .draft7 scope hops false base
        [("type", .str "array"), ("items", items)] v) := by
  have isArray : TypeName.ofText? "array" = some .array := rfl
  rw [← admits_array_iff, Bool.not_eq_true]
  refine decides_applyAll (activeKeywords_eq_self rfl) ?_
  refine Decides.congr (decides_collect_cons (decides_type isArray _)
    (decides_collect_cons (below _) decides_collect_nil)) ?_ fun _ => ?_
  · rw [or_false]
  · rw [and_true]

/-! ## Object types -/

/-- The keywords of an object schema that others look at. -/
theorem objectSchema_keywords {additional : Json} {required : List String} {properties : Table Json}
    {members : List (String × Json)}
    (form : objectSchema additional required properties = .obj members) :
    Table.get? members "patternProperties" = none ∧
      (Table.get? members "properties").getD (.obj []) = .obj properties := by
  rw [objectSchema, Json.obj.injEq] at form
  subst form
  cases properties with
  | nil => cases required.isEmpty <;> exact ⟨rfl, rfl⟩
  | cons entry rest => cases required.isEmpty <;> exact ⟨rfl, rfl⟩

theorem decides_objectSchema {additional : Json} {required : List String} {properties : Table Json}
    {members : List (String × Json)} {stuckOthers holdsOthers stuckDeclared holdsDeclared : Prop}
    (form : objectSchema additional required properties = .obj members)
    (others : ∀ hx, Decides stuckOthers holdsOthers
      (applyKeyword .draft7 scope hops false base members "additionalProperties" additional hx v))
    (declared : ∀ hx, Decides stuckDeclared holdsDeclared
      (applyKeyword .draft7 scope hops false base members "properties" (.obj properties) hx v))
    (undeclared : properties = [] → ¬ stuckDeclared ∧ holdsDeclared) :
    Decides
      (TypeName.object.admits v = false ∧ v.isWritable = false ∨ stuckOthers ∨ stuckDeclared)
      (TypeName.object.admits v = true ∧ holdsOthers ∧
        (∀ present, v = .obj present → ∀ name ∈ required, Table.has present name = true) ∧
        holdsDeclared)
      (applyAll .draft7 .draft7 scope hops false base members v) := by
  rw [objectSchema, Json.obj.injEq] at form
  subst form
  have isObject : TypeName.ofText? "object" = some .object := rfl
  refine decides_applyAll (activeKeywords_eq_self ?_) ?_
  · cases required.isEmpty <;> cases properties.isEmpty <;> rfl
  · revert others declared
    cases noRequired : required.isEmpty with
    | true =>
        cases noProperties : properties.isEmpty with
        | true =>
            intro others declared
            refine Decides.congr (decides_collect_cons (decides_type isObject _)
              (decides_collect_cons (others _) decides_collect_nil)) ?_ fun _ => ?_
            · simp [undeclared (List.isEmpty_iff.1 noProperties)]
            · simp [undeclared (List.isEmpty_iff.1 noProperties), List.isEmpty_iff.1 noRequired]
        | false =>
            intro others declared
            refine Decides.congr (decides_collect_cons (decides_type isObject _)
              (decides_collect_cons (others _)
                (decides_collect_cons (declared _) decides_collect_nil))) ?_ fun _ => ?_
            · simp
            · simp [List.isEmpty_iff.1 noRequired]
    | false =>
        cases noProperties : properties.isEmpty with
        | true =>
            intro others declared
            refine Decides.congr (decides_collect_cons (decides_type isObject _)
              (decides_collect_cons (others _)
                (decides_collect_cons (decides_required _) decides_collect_nil))) ?_ fun _ => ?_
            · simp [undeclared (List.isEmpty_iff.1 noProperties)]
            · simp [undeclared (List.isEmpty_iff.1 noProperties)]
        | false =>
            intro others declared
            refine Decides.congr (decides_collect_cons (decides_type isObject _)
              (decides_collect_cons (others _)
                (decides_collect_cons (decides_required _)
                  (decides_collect_cons (declared _) decides_collect_nil)))) ?_ fun _ => ?_
            · simp
            · simp

end RouteContract.Shape
