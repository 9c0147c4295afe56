import Mathlib.Data.List.Perm.Subperm
import Mathlib.Logic.Relation
import RouteContract.Proofs.Schema.Address
import RouteContract.Schema.Evaluation

/-!
# Which schemas meet which values

Checking a value takes the value itself, its parts and its names to the subschemas of a schema and
to the schemas that references lead to. `Meets` is what can be taken where, before it is known which
keywords accept their values.

Subschemas of some kinds and targets of references are met by the same value again (`LeadsOn`).
Where no schema comes back to itself in this way, no reference is followed twice before a part of
the value is taken, so that there are always references left to follow (`MayFollow.follow`).
-/

set_option autoImplicit false

namespace RouteContract.Schema

open RouteContract Json Relation

variable {root whole schema sub target v part : Json} {keywords : List (String × Json)}
  {ref : String}

/-! ## Subschemas -/

/-- A keyword of a schema applies a subschema to the value that the schema is applied to. -/
inductive AppliesHere (keywords : List (String × Json)) : Json → Prop where
  | listed {keyword : String} {subs : List Json} {sub : Json} (known : keyword ∈ listKeywords)
      (stated : (keyword, .arr subs) ∈ keywords) (among : sub ∈ subs) : AppliesHere keywords sub
  | condition {keyword : String} {sub : Json} (known : keyword ∈ ["not", "if"])
      (stated : (keyword, sub) ∈ keywords) : AppliesHere keywords sub
  | branch {keyword : String} {sub : Json} (known : keyword ∈ ["then", "else"])
      (decided : Table.has keywords "if" = true) (stated : Table.get? keywords keyword = some sub) :
      AppliesHere keywords sub
  | dependency {subs : List (String × Json)} {name : String} {sub : Json}
      (stated : ("dependencies", .obj subs) ∈ keywords) (among : (name, sub) ∈ subs)
      (isSchema : sub.items? = none) : AppliesHere keywords sub

/-- A keyword of a schema applies a subschema to a part of the value, or to a name in it. -/
inductive AppliesBelow (keywords : List (String × Json)) : Json → Json → Json → Prop where
  | eachItem {items subs : List Json} {i : Nat} {item sub : Json}
      (stated : ("items", .arr subs) ∈ keywords) (subAt : subs[i]? = some sub)
      (itemAt : items[i]? = some item) : AppliesBelow keywords (.arr items) sub item
  | items {items : List Json} {item sub : Json} (stated : ("items", sub) ∈ keywords)
      (isSchema : sub.items? = none) (among : item ∈ items) :
      AppliesBelow keywords (.arr items) sub item
  | additionalItems {items : List Json} {count : Nat} {item sub : Json}
      (stated : ("additionalItems", sub) ∈ keywords)
      (fixed : fixedItems? keywords = .ok (some count)) (beyond : item ∈ items.drop count) :
      AppliesBelow keywords (.arr items) sub item
  | contains {items : List Json} {item sub : Json} (stated : ("contains", sub) ∈ keywords)
      (among : item ∈ items) : AppliesBelow keywords (.arr items) sub item
  | property {members subs : List (String × Json)} {name : String} {sub w : Json}
      (stated : ("properties", .obj subs) ∈ keywords) (declared : (name, sub) ∈ subs)
      (among : (name, w) ∈ members) : AppliesBelow keywords (.obj members) sub w
  | patterned {members subs : List (String × Json)} {source name : String} {sub w : Json}
      (stated : ("patternProperties", .obj subs) ∈ keywords) (declared : (source, sub) ∈ subs)
      (among : (name, w) ∈ members) (occurs : patternOccurs source name = .ok true) :
      AppliesBelow keywords (.obj members) sub w
  | additional {members : List (String × Json)} {name : String} {sub w : Json}
      (stated : ("additionalProperties", sub) ∈ keywords) (among : (name, w) ∈ members)
      (undeclared :
        namesContain ((Table.get? keywords "properties").getD (.obj [])) name = .ok false) :
      AppliesBelow keywords (.obj members) sub w
  | name {members : List (String × Json)} {name : String} {sub : Json}
      (stated : ("propertyNames", sub) ∈ keywords) (among : name ∈ Table.keys members) :
      AppliesBelow keywords (.obj members) sub (.str name)

/-- A subschema stands under a keyword. -/
theorem AppliesHere.under (h : AppliesHere keywords sub) :
    ∃ entry ∈ keywords, IsPart sub entry.2 := by
  cases h with
  | listed _ stated among => exact ⟨_, stated, .of_item among⟩
  | condition _ stated => exact ⟨_, stated, .self sub⟩
  | branch _ _ stated => exact ⟨_, Table.mem_of_get? stated, .self sub⟩
  | dependency stated among => exact ⟨_, stated, .of_member among⟩

theorem AppliesBelow.under (h : AppliesBelow keywords v sub part) :
    ∃ entry ∈ keywords, IsPart sub entry.2 := by
  cases h with
  | eachItem stated subAt => exact ⟨_, stated, .of_item (List.mem_of_getElem? subAt)⟩
  | property stated declared | patterned stated declared =>
      exact ⟨_, stated, .of_member declared⟩
  | items stated | additionalItems stated | contains stated | additional stated | name stated =>
      exact ⟨_, stated, .self sub⟩

theorem AppliesHere.weight_lt (h : AppliesHere keywords sub) :
    sub.weight < Json.weightMembers keywords := by
  obtain ⟨entry, stated, below⟩ := h.under
  exact Nat.lt_of_le_of_lt below.weight_le (Json.weight_lt_weightMembers stated)

/-- What a subschema is applied to is a part of the value, or a name in it. -/
theorem AppliesBelow.isPartOrText (h : AppliesBelow keywords v sub part) :
    IsPartOrText v part := by
  cases h with
  | eachItem _ _ itemAt => exact .inl (.of_item (List.mem_of_getElem? itemAt))
  | additionalItems _ _ beyond => exact .inl (.of_item (List.mem_of_mem_drop beyond))
  | items _ _ among | contains _ among => exact .inl (.of_item among)
  | property _ _ among | patterned _ _ among | additional _ among => exact .inl (.of_member among)
  | name => exact .inr ⟨_, rfl⟩

/-- The part of the value, or the name in it, is lighter than the value. -/
theorem AppliesBelow.weight_lt (h : AppliesBelow keywords v sub part) : part.weight < v.weight := by
  have item {items : List Json} {item : Json} (among : item ∈ items) :
      item.weight < (Json.arr items).weight := by
    have le := Json.weight_le_weightItems among
    rw [Json.weight]
    omega
  have member {members : List (String × Json)} {name : String} {w : Json}
      (among : (name, w) ∈ members) : w.weight < (Json.obj members).weight := by
    have lt := Json.weight_lt_weightMembers among
    rw [Json.weight]
    simp only at lt
    omega
  cases h with
  | eachItem _ _ itemAt => exact item (List.mem_of_getElem? itemAt)
  | additionalItems _ _ beyond => exact item (List.mem_of_mem_drop beyond)
  | items _ _ among | contains _ among => exact item among
  | property _ _ among | patterned _ _ among | additional _ among => exact member among
  | name _ among =>
      obtain ⟨entry, among, -⟩ := List.mem_map.1 among
      have lt := Json.weight_lt_weightMembers among
      rw [Json.weight, Json.weight]
      omega

/-! ## Meeting -/

/-- The references of a schema are read from the address of the document: the base address is that
one, or there are no references. -/
def ReadsFrom (address base : String) (schema : Json) : Prop :=
  base = address ∨ Lacks "$ref" schema

namespace ReadsFrom

variable {address base : String}

theorem self (address : String) (schema : Json) : ReadsFrom address address schema := .inl rfl

theorem of_isPart (reads : ReadsFrom address base schema) (below : IsPart sub schema) :
    ReadsFrom address base sub := reads.imp_right (·.of_isPart below)

theorem base_eq {x : Json} (reads : ReadsFrom address base (.obj keywords))
    (stated : Table.get? keywords "$ref" = some x) : base = address := by
  rcases reads with same | lacks
  · exact same
  · rw [lacks keywords (.self _)] at stated
    cases stated

end ReadsFrom

/-- A local reference leads to a part of the document, whatever address the document is known by.
A part that is a document of its own has no references inside it. -/
def LeadsTo (root : Json) (ref : String) (target : Json) : Prop :=
  ref.toList.head? = some '#' ∧ ∀ address, ∃ inside,
    (Scope.mk root address).lookup address ref = .ok (target, inside) ∧
      ReadsFrom address inside target

theorem LeadsTo.unique {other : Json} (first : LeadsTo root ref target)
    (second : LeadsTo root ref other) : target = other := by
  obtain ⟨_, found, -⟩ := first.2 ""
  obtain ⟨_, again, -⟩ := second.2 ""
  rw [found] at again
  cases again
  rfl

/-- A schema of a document is applied to a part of a value, or to a name in it. -/
inductive Meets (root whole : Json) : Json → Json → Prop where
  | document : Meets root whole root whole
  | beside {keywords : List (String × Json)} {sub v : Json}
      (met : Meets root whole (.obj keywords) v) (plain : Table.get? keywords "$ref" = none)
      (applies : AppliesHere keywords sub) : Meets root whole sub v
  | inside {keywords : List (String × Json)} {sub v part : Json}
      (met : Meets root whole (.obj keywords) v) (plain : Table.get? keywords "$ref" = none)
      (applies : AppliesBelow keywords v sub part) : Meets root whole sub part
  | target {keywords : List (String × Json)} {ref : String} {target v : Json}
      (met : Meets root whole (.obj keywords) v)
      (stated : Table.get? keywords "$ref" = some (.str ref)) (leads : LeadsTo root ref target) :
      Meets root whole target v

/-- A schema of a document, one that some value is checked against. -/
def Stands (root schema : Json) : Prop := ∃ whole v, Meets root whole schema v

theorem Meets.stands (h : Meets root whole schema v) : Stands root schema := ⟨whole, v, h⟩

theorem Meets.isPartOrText (h : Meets root whole schema v) : IsPartOrText root schema := by
  induction h with
  | document => exact .inl (.self root)
  | beside _ _ applies ih =>
      obtain ⟨entry, stated, below⟩ := applies.under
      exact .inl ((below.trans (.of_member stated)).trans ih.part)
  | inside _ _ applies ih =>
      obtain ⟨entry, stated, below⟩ := applies.under
      exact .inl ((below.trans (.of_member stated)).trans ih.part)
  | target _ _ leads =>
      obtain ⟨_, found, -⟩ := leads.2 ""
      exact lookup_part found

/-- What is met is a part of the whole value, or a name in it. -/
theorem Meets.value (h : Meets root whole schema v) : IsPartOrText whole v := by
  induction h with
  | document => exact .inl (.self whole)
  | beside _ _ _ ih => exact ih
  | target _ _ _ ih => exact ih
  | inside _ _ applies ih =>
      rcases applies.isPartOrText with part | text
      · exact ih.of_isPart part
      · exact .inr text

/-- Objects among the schemas of a document are parts of it. -/
theorem Stands.isPart (h : Stands root (.obj keywords)) : IsPart (.obj keywords) root := by
  obtain ⟨whole, v, met⟩ := h
  exact met.isPartOrText.part

/-! ## Leading on -/

/-- A schema takes the value that it is applied to on to another one. -/
inductive LeadsOn (root : Json) : Json → Json → Prop where
  | here {keywords : List (String × Json)} {sub : Json} (plain : Table.get? keywords "$ref" = none)
      (applies : AppliesHere keywords sub) : LeadsOn root (.obj keywords) sub
  | target {keywords : List (String × Json)} {ref : String} {target : Json}
      (stated : Table.get? keywords "$ref" = some (.str ref)) (leads : LeadsTo root ref target) :
      LeadsOn root (.obj keywords) target

/-- No schema of a document comes back to itself without taking a part of the value. -/
def IsAcyclic (root : Json) : Prop :=
  ∀ schema, Stands root schema → ¬ TransGen (LeadsOn root) schema schema

/-! ## References -/

mutual
/-- The references in a document. -/
def referencesIn : Json → List String
  | .arr items => referencesInItems items
  | .obj members => referencesInMembers members
  | _ => []

/-- The references in the items of an array. -/
def referencesInItems : List Json → List String
  | [] => []
  | item :: rest => referencesIn item ++ referencesInItems rest

/-- The references in the members of an object. -/
def referencesInMembers : List (String × Json) → List String
  | [] => []
  | (name, value) :: rest =>
      (if name = "$ref" then value.text?.toList else []) ++ referencesIn value ++
        referencesInMembers rest
end

section References

variable {items : List Json} {members : List (String × Json)}

theorem mem_referencesInItems {item : Json} (listed : item ∈ items)
    (mem : ref ∈ referencesIn item) : ref ∈ referencesInItems items := by
  induction items with
  | nil => cases listed
  | cons first rest ih =>
      rw [referencesInItems, List.mem_append]
      cases listed with
      | head => exact .inl mem
      | tail _ listed => exact .inr (ih listed)

theorem mem_referencesInMembers {entry : String × Json} (listed : entry ∈ members)
    (mem : ref ∈ referencesIn entry.2) : ref ∈ referencesInMembers members := by
  induction members with
  | nil => cases listed
  | cons first rest ih =>
      obtain ⟨name, value⟩ := first
      rw [referencesInMembers, List.mem_append, List.mem_append]
      cases listed with
      | head => exact .inl (.inr mem)
      | tail _ listed => exact .inr (ih listed)

theorem mem_referencesInMembers_of_stated (stated : ("$ref", .str ref) ∈ members) :
    ref ∈ referencesInMembers members := by
  induction members with
  | nil => cases stated
  | cons first rest ih =>
      obtain ⟨name, value⟩ := first
      rw [referencesInMembers, List.mem_append, List.mem_append]
      rcases List.mem_cons.1 stated with same | stated
      · cases same
        exact .inl (.inl (List.mem_singleton_self ref))
      · exact .inr (ih stated)

/-- The references that parts of a document state are among its references. -/
theorem mem_referencesIn (stands : IsPart (.obj keywords) root)
    (stated : Table.get? keywords "$ref" = some (.str ref)) : ref ∈ referencesIn root := by
  induction stands with
  | self => exact mem_referencesInMembers_of_stated (Table.mem_of_get? stated)
  | item listed _ ih => exact mem_referencesInItems listed ih
  | member listed _ ih => exact mem_referencesInMembers listed ih

mutual
theorem length_referencesIn : ∀ v : Json, (referencesIn v).length ≤ (countNames v).1
  | .null => Nat.zero_le _
  | .bool _ => Nat.zero_le _
  | .int _ => Nat.zero_le _
  | .float _ => Nat.zero_le _
  | .str _ => Nat.zero_le _
  | .arr items => length_referencesInItems items
  | .obj members => length_referencesInMembers members

theorem length_referencesInItems :
    ∀ items : List Json, (referencesInItems items).length ≤ (countNamesItems items).1
  | [] => Nat.zero_le _
  | item :: rest => by
      have first := length_referencesIn item
      have later := length_referencesInItems rest
      simp only [referencesInItems, countNamesItems, List.length_append]
      omega

theorem length_referencesInMembers :
    ∀ members : List (String × Json),
      (referencesInMembers members).length ≤ (countNamesMembers members).1
  | [] => Nat.zero_le _
  | (name, value) :: rest => by
      have first := length_referencesIn value
      have later := length_referencesInMembers rest
      have own : (if name = "$ref" then value.text?.toList else []).length ≤
          if name ∈ referenceKeywords then 1 else 0 := by
        split
        · next same =>
            rw [same, if_pos (by decide)]
            cases value <;> simp [text?]
        · exact Nat.zero_le _
      simp only [referencesInMembers, countNamesMembers, List.length_append]
      omega
end

/-- The bound on chains counts references at addresses, in each of several dialects. -/
theorem le_chainLimit (scope : Scope) :
    ((countNames scope.root).1 + 1) * ((countNames scope.root).2 + 2) ≤ scope.chainLimit :=
  Nat.le_mul_of_pos_right _ (by decide)

theorem length_referencesIn_lt_chainLimit (address : String) :
    (referencesIn root).length < (Scope.mk root address).chainLimit := by
  have le := length_referencesIn root
  have bound : (countNames root).1 + 1 ≤ ((countNames root).1 + 1) * ((countNames root).2 + 2) :=
    Nat.le_mul_of_pos_right _ (Nat.succ_pos _)
  exact Nat.lt_of_lt_of_le (Nat.lt_succ_of_le le) (Nat.le_trans bound (le_chainLimit ⟨root, address⟩))

end References

/-! ## Chains of references -/

/-- So many references may still be followed from a schema that those already followed on the way to
it and these are more than there are references in the document. -/
def MayFollow (root : Json) (hops : Nat) (schema : Json) : Prop :=
  ∃ seen : List String, seen.Nodup ∧ seen ⊆ referencesIn root ∧
    (∀ ref ∈ seen, ∃ target, LeadsTo root ref target ∧
      ReflTransGen (LeadsOn root) target schema) ∧
    (referencesIn root).length < hops + seen.length

namespace MayFollow

variable {hops : Nat}

/-- Where a part of the value was taken, no reference was followed yet. -/
theorem start (address : String) (schema : Json) :
    MayFollow root (Scope.mk root address).chainLimit schema :=
  ⟨[], .nil, List.nil_subset _, nofun, length_referencesIn_lt_chainLimit address⟩

theorem beside (h : MayFollow root hops (.obj keywords)) (plain : Table.get? keywords "$ref" = none)
    (applies : AppliesHere keywords sub) : MayFollow root hops sub := by
  obtain ⟨seen, distinct, among, followed, bound⟩ := h
  refine ⟨seen, distinct, among, ?_, bound⟩
  intro ref mem
  obtain ⟨target, leads, further⟩ := followed ref mem
  exact ⟨target, leads, further.tail (.here plain applies)⟩

/-- **A reference that leads nowhere back can be followed.** It was not followed on the way, so
there is one that may still be followed. -/
theorem follow (h : MayFollow root hops (.obj keywords)) (stands : IsPart (.obj keywords) root)
    (stated : Table.get? keywords "$ref" = some (.str ref)) (leads : LeadsTo root ref target)
    (onward : ¬ TransGen (LeadsOn root) target target) :
    ∃ fewer, hops = fewer + 1 ∧ MayFollow root fewer target := by
  obtain ⟨seen, distinct, among, followed, bound⟩ := h
  have last : LeadsOn root (.obj keywords) target := .target stated leads
  have fresh : ref ∉ seen := by
    intro mem
    obtain ⟨other, same, further⟩ := followed ref mem
    rw [same.unique leads] at further
    exact onward (.tail' further last)
  have distinct' : (ref :: seen).Nodup := List.nodup_cons.2 ⟨fresh, distinct⟩
  have among' : ref :: seen ⊆ referencesIn root :=
    List.cons_subset.2 ⟨mem_referencesIn stands stated, among⟩
  have few : seen.length + 1 ≤ (referencesIn root).length :=
    (List.Nodup.subperm distinct' among').length_le
  obtain ⟨fewer, rfl⟩ : ∃ fewer, hops = fewer + 1 := Nat.exists_eq_succ_of_ne_zero (by omega)
  refine ⟨fewer, rfl, ref :: seen, distinct', among', ?_, ?_⟩
  · intro other mem
    rcases List.mem_cons.1 mem with rfl | mem
    · exact ⟨target, leads, .refl⟩
    · obtain ⟨first, leads, further⟩ := followed other mem
      exact ⟨first, leads, further.tail last⟩
  · rw [List.length_cons]
    omega

end MayFollow

end RouteContract.Schema
