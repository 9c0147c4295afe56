import RouteContract.Proofs.Json.RoundTrip
import RouteContract.Proofs.Schema.Address
import RouteContract.Proofs.Schema.Passing
import RouteContract.Proofs.Schema.Report

/-!
# What coercion does to values that pass

Coercion and evaluation walk through a value side by side. Below a schema that a value passes,
coercion takes the parts of the value to subschemas that they pass as well, with two exceptions: a
member that a pattern provides for is taken to the schema for additional members, and beside a
reference that leaves the document the other keywords are heeded, which the evaluation does not look
at. `Overreaches` says that coercion changes a value in one of these two ways, and a value that
passes is left as it is unless that happens (`coerceUnder_eq_self_iff`). Where a schema has no
patterns and its references stay inside, it cannot happen (`not_overreaches`).
-/

set_option autoImplicit false

namespace RouteContract.Schema

open RouteContract Json

variable {root v : Json} {hops : Nat} {keywords members : List (String × Json)}

/-! ## The schemas of members -/

/-- The schema that coercion takes undeclared members to. -/
def additionalSchema? (keywords : List (String × Json)) : Option Json :=
  match Table.get? keywords "additionalProperties" with
  | some (.obj extra) => some (.obj extra)
  | _ => none

/-- Coercion takes a declared member to the schema of its name and any other one to the schema for
additional members. No pattern is asked. -/
theorem memberSchema?_eq {declared : Table Json}
    (declares : (Table.get? keywords "properties").getD (.obj []) = .obj declared) (name : String) :
    memberSchema? keywords name =
      .ok (if Table.has declared name then Table.get? declared name
        else additionalSchema? keywords) := by
  have same : (if (Json.obj declared).isVoid then Json.obj [] else .obj declared) =
      .obj declared := by
    cases declared <;> rfl
  rw [memberSchema?, additionalSchema?]
  cases stated : Table.get? keywords "properties" with
  | none =>
      rw [stated] at declares
      cases declares
      cases Table.get? keywords "additionalProperties" with
      | none => rfl
      | some x => cases x <;> rfl
  | some x =>
      rw [stated] at declares
      obtain rfl : x = .obj declared := declares
      simp only [same, namesContain]
      cases Table.has declared name with
      | true => rfl
      | false =>
          cases Table.get? keywords "additionalProperties" with
          | none => rfl
          | some x => cases x <;> rfl

theorem memberSchema?_part {name : String} {sub : Json}
    (found : memberSchema? keywords name = .ok (some sub)) : IsPart sub (.obj keywords) := by
  rw [memberSchema?] at found
  split at found
  · cases found
  · next subs _ declares =>
      split at declares
      · cases declares
        cases found
      · next x stated =>
          split at declares
          · cases declares
            cases found
          · cases declares
            exact (IsPart.of_get? (Except.ok.inj found)).trans (.of_get? stated)
  · cases found
  · split at found
    · next extra stated =>
        cases found
        exact .of_get? stated
    · cases found

theorem itemSchema?_part {i : Nat} {sub : Json} (found : itemSchema? keywords i = some sub) :
    IsPart sub (.obj keywords) := by
  rw [itemSchema?] at found
  split at found
  · next subs stated => exact (IsPart.of_item (List.mem_of_getElem? found)).trans (.of_get? stated)
  · next sub stated =>
      cases found
      exact .of_get? stated
  · cases found

/-! ## Overreach -/

/-- A member of a name that is not declared, but that a pattern matches. -/
structure IsPatterned (keywords : List (String × Json)) (name : String) : Prop where
  undeclared :
    namesContain ((Table.get? keywords "properties").getD (.obj [])) name = .ok false
  matched : ∃ patterns, joinedPatterns keywords = .ok patterns ∧ patterns.isEmpty = false ∧
    patternOccurs patterns name = .ok true

/-- An undeclared member that is not an additional one is provided for by a pattern. -/
theorem isPatterned_of_isAdditional {patterns name : String}
    (undeclared : namesContain ((Table.get? keywords "properties").getD (.obj [])) name = .ok false)
    (joined : joinedPatterns keywords = .ok patterns)
    (provided : isAdditional ((Table.get? keywords "properties").getD (.obj [])) patterns name =
      .ok false) : IsPatterned keywords name := by
  rw [isAdditional, undeclared] at provided
  simp only at provided
  split at provided
  · cases provided
  · next some =>
      obtain ⟨b, occurs, no⟩ := map_eq_ok_iff.1 provided
      refine ⟨undeclared, patterns, joined, by simpa using some, ?_⟩
      rw [occurs, ← Bool.not_not b, no]
      rfl

/-- A schema document as coercion knows it. -/
def coercionScope (root : Json) : Scope := ⟨root, coercionAddress⟩

/-- The number of references that may be followed before a part of a value is taken. -/
def chainLimit (root : Json) : Nat := (coercionScope root).chainLimit

/-- Coercion of a part of a value under a subschema of a document. -/
def coercePart (root sub v : Json) : Except Fault Json :=
  coerceUnder (coercionScope root) (chainLimit root) coercionAddress sub v

/-- Somewhere in a value, coercion heeds what the evaluation does not look at there, and what it
heeds makes it change the value: the schema for additional members where a pattern provides for a
member, or what stands beside a reference that leaves the document. -/
inductive Overreaches (root : Json) : Nat → Json → Json → Prop where
  | patterned {hops : Nat} {keywords members extra : List (String × Json)}
      {entry : String × Json} (plain : Table.get? keywords "$ref" = none)
      (listed : entry ∈ members) (provided : IsPatterned keywords entry.1)
      (stated : Table.get? keywords "additionalProperties" = some (.obj extra))
      (changes : coercePart root (.obj extra) entry.2 ≠ .ok entry.2) :
      Overreaches root hops (.obj keywords) (.obj members)
  | beside {hops : Nat} {keywords : List (String × Json)} {ref : String} {v : Json}
      (stated : Table.get? keywords "$ref" = some (.str ref))
      (leaves : localReference? keywords = none)
      (changes : coerceUnder (coercionScope root) hops coercionAddress (.obj keywords) v ≠ .ok v) :
      Overreaches root hops (.obj keywords) v
  | member {hops : Nat} {keywords members : List (String × Json)} {entry : String × Json}
      {sub : Json} (plain : Table.get? keywords "$ref" = none) (listed : entry ∈ members)
      (governed : ¬ IsPatterned keywords entry.1)
      (found : memberSchema? keywords entry.1 = .ok (some sub))
      (below : Overreaches root (chainLimit root) sub entry.2) :
      Overreaches root hops (.obj keywords) (.obj members)
  | item {hops : Nat} {keywords : List (String × Json)} {items : List Json} {i : Nat}
      {item sub : Json} (plain : Table.get? keywords "$ref" = none) (listed : items[i]? = some item)
      (found : itemSchema? keywords i = some sub)
      (below : Overreaches root (chainLimit root) sub item) :
      Overreaches root hops (.obj keywords) (.arr items)
  | reference {hops : Nat} {keywords : List (String × Json)} {ref : String} {target v : Json}
      (stated : localReference? keywords = some ref)
      (led : (coercionScope root).lookup coercionAddress ref = .ok (target, coercionAddress))
      (below : Overreaches root hops target v) : Overreaches root (hops + 1) (.obj keywords) v

theorem localReference?_of_plain (plain : Table.get? keywords "$ref" = none) :
    localReference? keywords = none := by
  rw [localReference?, plain]

theorem stated_of_localReference? {ref : String} (h : localReference? keywords = some ref) :
    Table.get? keywords "$ref" = some (.str ref) ∧ ref.toList.head? = some '#' := by
  rw [localReference?] at h
  split at h
  · next other stated =>
      split at h
      · next isLocal =>
          cases h
          exact ⟨stated, by simpa using isLocal⟩
      · cases h
  · cases h

namespace Overreaches

theorem not_single (plain : Table.get? keywords "$ref" = none) (single : IsSingle v) :
    ¬ Overreaches root hops (.obj keywords) v := by
  intro h
  cases h with
  | patterned | member => exact single.2 _ rfl
  | item => exact single.1 _ rfl
  | beside stated =>
      rw [plain] at stated
      cases stated
  | reference stated =>
      rw [localReference?_of_plain plain] at stated
      cases stated

theorem arr_iff (plain : Table.get? keywords "$ref" = none) {items : List Json} :
    Overreaches root hops (.obj keywords) (.arr items) ↔
      ∃ i item, items[i]? = some item ∧ ∃ sub, itemSchema? keywords i = some sub ∧
        Overreaches root (chainLimit root) sub item := by
  constructor
  · intro h
    cases h with
    | item _ listed found below => exact ⟨_, _, listed, _, found, below⟩
    | beside stated =>
        rw [plain] at stated
        cases stated
    | reference stated =>
        rw [localReference?_of_plain plain] at stated
        cases stated
  · rintro ⟨i, item, listed, sub, found, below⟩
    exact .item plain listed found below

/-- Overreaching at one member of an object. -/
def AtMember (root : Json) (keywords : List (String × Json)) (entry : String × Json) : Prop :=
  (IsPatterned keywords entry.1 ∧
    ∃ extra, Table.get? keywords "additionalProperties" = some (.obj extra) ∧
      coercePart root (.obj extra) entry.2 ≠ .ok entry.2) ∨
  (¬ IsPatterned keywords entry.1 ∧
    ∃ sub, memberSchema? keywords entry.1 = .ok (some sub) ∧
      Overreaches root (chainLimit root) sub entry.2)

theorem obj_iff (plain : Table.get? keywords "$ref" = none) :
    Overreaches root hops (.obj keywords) (.obj members) ↔
      ∃ entry ∈ members, AtMember root keywords entry := by
  constructor
  · intro h
    cases h with
    | patterned _ listed provided stated changes =>
        exact ⟨_, listed, .inl ⟨provided, _, stated, changes⟩⟩
    | member _ listed governed found below => exact ⟨_, listed, .inr ⟨governed, _, found, below⟩⟩
    | beside stated =>
        rw [plain] at stated
        cases stated
    | reference stated =>
        rw [localReference?_of_plain plain] at stated
        cases stated
  · rintro ⟨entry, listed, ⟨provided, extra, stated, changes⟩ | ⟨governed, sub, found, below⟩⟩
    · exact .patterned plain listed provided stated changes
    · exact .member plain listed governed found below

/-- Beside a reference that leaves the document, it is any change. -/
theorem beside_iff {ref : String} (stated : Table.get? keywords "$ref" = some (.str ref))
    (leaves : localReference? keywords = none) :
    Overreaches root hops (.obj keywords) v ↔
      coerceUnder (coercionScope root) hops coercionAddress (.obj keywords) v ≠ .ok v := by
  constructor
  · intro h
    cases h with
    | beside _ _ changes => exact changes
    | patterned plain | member plain | item plain =>
        rw [plain] at stated
        cases stated
    | reference inside =>
        rw [leaves] at inside
        cases inside
  · intro changes
    exact .beside stated leaves changes

/-- At a reference, it happens where the reference leads to. -/
theorem reference_iff {ref : String} {target : Json}
    (stated : localReference? keywords = some ref)
    (led : (coercionScope root).lookup coercionAddress ref = .ok (target, coercionAddress)) :
    Overreaches root (hops + 1) (.obj keywords) v ↔ Overreaches root hops target v := by
  constructor
  · intro h
    cases h with
    | reference same found below =>
        rw [stated] at same
        cases same
        rw [led] at found
        cases found
        exact below
    | beside _ leaves =>
        rw [stated] at leaves
        cases leaves
    | patterned plain | member plain | item plain =>
        rw [localReference?_of_plain plain] at stated
        cases stated
  · intro below
    exact .reference stated led below

end Overreaches

/-! ## Lists that are left as they are -/

theorem mapUntilFault_eq_self_iff {α : Type} {f : α → Except Fault α} {xs : List α} :
    mapUntilFault f xs = .ok xs ↔ ∀ x ∈ xs, f x = .ok x := by
  rw [mapUntilFault_eq_ok_iff, List.forall₂_same]

theorem mapUntilFault_zipIdx_eq_self_iff {α : Type} {f : α × Nat → Except Fault α} {xs : List α} :
    mapUntilFault f xs.zipIdx = .ok xs ↔ ∀ i x, xs[i]? = some x → f (x, i) = .ok x := by
  have walk : List.Forall₂ (fun entry x => f entry = .ok x) xs.zipIdx (xs.zipIdx.map Prod.fst) ↔
      ∀ entry ∈ xs.zipIdx, f entry = .ok entry.1 := by
    rw [List.forall₂_map_right_iff, List.forall₂_same]
  rw [List.zipIdx_map_fst] at walk
  rw [mapUntilFault_eq_ok_iff, walk, Prod.forall]
  simp only [List.mem_zipIdx_iff_getElem?]
  exact forall_comm

theorem map_eq_self_iff {α β : Type} {f : α → β} (injective : Function.Injective f)
    {r : Except Fault α} {a : α} : r.map f = .ok (f a) ↔ r = .ok a := by
  rw [map_eq_ok_iff]
  constructor
  · rintro ⟨b, done, same⟩
    rw [done, injective same]
  · intro done
    exact ⟨a, done, rfl⟩

theorem coerceMember_eq_self_iff {entry : String × Json} {sub? : Option Json}
    (found : memberSchema? keywords entry.1 = .ok sub?) :
    coerceMember (coercionScope root) coercionAddress keywords entry = .ok entry ↔
      ∀ sub, sub? = some sub → coercePart root sub entry.2 = .ok entry.2 := by
  obtain ⟨name, w⟩ := entry
  rw [coerceMember, found]
  cases sub? with
  | none => simp
  | some sub =>
      simp only [Option.some.injEq, forall_eq']
      exact map_eq_self_iff (Prod.mk_right_injective name)

theorem coerceItem_eq_self_iff {item : Json} {i : Nat} :
    coerceItem (coercionScope root) coercionAddress keywords (item, i) = .ok item ↔
      ∀ sub, itemSchema? keywords i = some sub → coercePart root sub item = .ok item := by
  rw [coerceItem]
  cases itemSchema? keywords i with
  | none => simp
  | some sub =>
      simp only [Option.some.injEq, forall_eq']
      exact Iff.rfl

/-! ## Values that pass -/

section Passing

variable {schema : Json}

/-- Coercion leaves a value that passes exactly when it does not overreach. -/
def Spared (root : Json) (hops : Nat) (schema v : Json) : Prop :=
  Passes ⟨root, ""⟩ hops "" schema v →
    (coerceUnder (coercionScope root) hops coercionAddress schema v = .ok v ↔
      ¬ Overreaches root hops schema v)

section Parts

variable {scope : Scope} {base : String}

/-- A member that no pattern provides for passes the schema that coercion takes it to. -/
theorem passes_of_memberSchema? {declared : Table Json}
    (plain : Table.get? keywords "$ref" = none)
    (passes : applyAll .draft7 .draft7 scope hops false base keywords (.obj members) = .ok [])
    (declares : (Table.get? keywords "properties").getD (.obj []) = .obj declared)
    (distinct : (Table.keys members).Nodup) {entry : String × Json} (listed : entry ∈ members)
    (governed : ¬ IsPatterned keywords entry.1) {sub : Json}
    (found : memberSchema? keywords entry.1 = .ok (some sub)) (stays : StaysPut sub) :
    Passes scope scope.chainLimit base sub entry.2 := by
  rw [memberSchema?_eq declares] at found
  cases has : Table.has declared entry.1 with
  | true =>
      rw [has, if_pos rfl] at found
      exact member_passes plain passes declares (Except.ok.inj found) stays
        (Table.get?_eq_some_of_mem distinct listed)
  | false =>
      rw [has, if_neg Bool.false_ne_true, additionalSchema?] at found
      split at found
      · next extra stated =>
          cases found
          obtain ⟨patterns, joined, ⟨-, passes⟩ | no⟩ :=
            additional_passes plain passes stated stays listed
          · exact passes
          · refine absurd (isPatterned_of_isAdditional ?_ joined no) governed
            rw [declares, namesContain, has]
      · cases found

/-- An item passes the schema that coercion takes it to. -/
theorem passes_of_itemSchema? {items : List Json} (plain : Table.get? keywords "$ref" = none)
    (passes : applyAll .draft7 .draft7 scope hops false base keywords (.arr items) = .ok [])
    {i : Nat} {item sub : Json} (listed : items[i]? = some item)
    (found : itemSchema? keywords i = some sub) (stays : StaysPut sub) :
    Passes scope scope.chainLimit base sub item := by
  rw [itemSchema?] at found
  split at found
  · next subs stated => exact item_passes_each plain passes stated listed found stays
  · next sub stated =>
      cases found
      exact item_passes plain passes stated stays listed
  · cases found

end Parts

/-- One member of an object that passes. -/
theorem spared_member {declared : Table Json} (noAddress : Lacks "$id" root)
    (keeps : KeepsDialect root) (stands : IsPart (.obj keywords) root)
    (plain : Table.get? keywords "$ref" = none)
    (passes : applyAll .draft7 .draft7 ⟨root, ""⟩ hops false "" keywords (.obj members) = .ok [])
    (declares : (Table.get? keywords "properties").getD (.obj []) = .obj declared)
    (distinct : (Table.keys members).Nodup) {entry : String × Json} (listed : entry ∈ members)
    (below : ∀ sub, IsPart sub root → Spared root (chainLimit root) sub entry.2) :
    coerceMember (coercionScope root) coercionAddress keywords entry = .ok entry ↔
      ¬ Overreaches.AtMember root keywords entry := by
  rw [Overreaches.AtMember]
  -- Where a pattern provides for the member, evaluation says nothing about it and the schema for
  -- additional members, so it has to be asked what that schema makes of it.
  by_cases provided : IsPatterned keywords entry.1
  · have undeclared : Table.has declared entry.1 = false := by
      have asked := provided.undeclared
      rw [declares, namesContain] at asked
      exact Except.ok.inj asked
    have governs := memberSchema?_eq declares entry.1
    rw [undeclared, if_neg Bool.false_ne_true] at governs
    rw [coerceMember_eq_self_iff governs, additionalSchema?]
    simp only [provided, true_and, not_true_eq_false, false_and, or_false, not_exists, not_and,
      not_not]
    split
    · next extra stated => simp [stated]
    · next other =>
        refine iff_of_true (by simp) ?_
        intro extra stated
        exact absurd stated (other extra)
  · obtain ⟨sub?, governs⟩ : ∃ sub?, memberSchema? keywords entry.1 = .ok sub? :=
      ⟨_, memberSchema?_eq declares entry.1⟩
    rw [coerceMember_eq_self_iff governs]
    simp only [provided, false_and, not_false_eq_true, true_and, false_or, not_exists, not_and]
    rw [governs]
    simp only [Except.ok.injEq]
    refine forall₂_congr fun sub same => ?_
    have found := governs.trans (congrArg Except.ok same)
    have part := (memberSchema?_part found).trans stands
    exact below sub part (passes_of_memberSchema? plain passes declares distinct listed provided
      found (staysPut noAddress keeps (.inl part)))

/-- A schema without a reference. -/
theorem spared_of_lighter (noAddress : Lacks "$id" root) (keeps : KeepsDialect root)
    (stands : IsPart (.obj keywords) root) (plain : Table.get? keywords "$ref" = none)
    (distinct : v.hasDistinctNames = true)
    (lighter : ∀ part : Json, part.weight < v.weight → part.hasDistinctNames = true →
      ∀ sub, IsPart sub root → Spared root (chainLimit root) sub part) :
    Spared root hops (.obj keywords) v := by
  intro passes
  rcases single_or_made_of v with single | ⟨items, rfl⟩ | ⟨members, rfl⟩
  · rw [coerceUnder_single (localReference?_of_plain plain) single]
    refine iff_of_true ?_ (Overreaches.not_single plain single)
    cases stated : Table.get? keywords "type" with
    | none => rfl
    | some x =>
        have listed := Table.mem_of_get? stated
        exact coerceType_of_passes listed
          ((applyAll_plain_eq_nil_iff plain).1 passes _ _ listed)
  · rw [coerceUnder_arr (localReference?_of_plain plain), map_eq_self_iff fun _ _ => Json.arr.inj,
      mapUntilFault_zipIdx_eq_self_iff, Overreaches.arr_iff plain]
    simp only [not_exists, not_and, coerceItem_eq_self_iff]
    refine forall₂_congr fun i item => forall_congr' fun listed => forall₂_congr fun sub found => ?_
    have inside := List.mem_of_getElem? listed
    have le := Json.weight_le_weightItems inside
    have part := (itemSchema?_part found).trans stands
    rw [Json.hasDistinctNames, haveDistinctNames_iff] at distinct
    exact lighter item (by rw [Json.weight]; omega) (distinct item inside) sub part
      (passes_of_itemSchema? plain passes listed found (staysPut noAddress keeps (.inl part)))
  · obtain ⟨declared, declares⟩ := declares_of_passes plain passes
    rw [coerceUnder_obj (localReference?_of_plain plain), map_eq_self_iff fun _ _ => Json.obj.inj,
      mapUntilFault_eq_self_iff, Overreaches.obj_iff plain]
    rw [Json.hasDistinctNames, Bool.and_eq_true, decide_eq_true_eq, membersHaveDistinctNames_iff]
      at distinct
    simp only [not_exists, not_and]
    refine forall₂_congr fun entry listed => ?_
    have lt := Json.weight_lt_weightMembers listed
    exact spared_member noAddress keeps stands plain passes declares distinct.1 listed
      (lighter entry.2 (by rw [Json.weight]; omega) (distinct.2 entry listed))

/-- A reference is followed by both, to the same part of the document. -/
theorem coerceUnder_reference {scope : Scope} {base ref inside : String} {target : Json}
    (stated : localReference? keywords = some ref)
    (led : scope.lookup base ref = .ok (target, inside)) :
    coerceUnder scope (hops + 1) base (.obj keywords) v =
      coerceUnder scope hops inside target v := by
  rw [coerceUnder.eq_def]
  simp only [stated, led]

/-- Any schema, given the parts of the value and the schemas that references lead to. -/
theorem spared_step (noAddress : Lacks "$id" root) (keeps : KeepsDialect root)
    (stands : IsPartOrText root schema) (distinct : v.hasDistinctNames = true)
    (lighter : ∀ part : Json, part.weight < v.weight → part.hasDistinctNames = true →
      ∀ sub, IsPart sub root → Spared root (chainLimit root) sub part)
    (further : ∀ fewer, hops = fewer + 1 → ∀ target, IsPartOrText root target →
      Spared root fewer target v) : Spared root hops schema v := by
  intro passes
  cases schema with
  | null | bool b | int i | float x | str s | arr items =>
      refine iff_of_true ?_ nofun
      rw [coerceUnder.eq_def]
  | obj keywords =>
      have part := stands.part
      rcases reference_of_passes passes with plain | ⟨ref, stated⟩
      · exact spared_of_lighter noAddress keeps part plain distinct lighter passes
      · cases follows : localReference? keywords with
        | none => rw [Overreaches.beside_iff stated follows, not_not]
        | some other =>
            obtain ⟨same, isLocal⟩ := stated_of_localReference? follows
            rw [stated] at same
            cases same
            obtain ⟨fewer, target, inside, rfl, led, below⟩ :=
              reference_passes stated passes fun target inside led =>
                keeps target (lookup_part led).part
            -- Evaluation has resolved the reference at its own address of the document, and
            -- coercion resolves it at another one.
            obtain ⟨fragment, text⟩ := List.head?_eq_some_iff.1 isLocal
            obtain ⟨rfl, elsewhere⟩ := lookup_local noAddress text led coercionAddress
            have led' : (coercionScope root).lookup coercionAddress ref =
                .ok (target, coercionAddress) := elsewhere
            rw [coerceUnder_reference follows led', Overreaches.reference_iff follows led']
            exact further fewer rfl target (lookup_part led) below

/-- **A value that passes is left as it is unless coercion overreaches.** The induction is on the
value, and for each value on the references that may still be followed, of which coercion and
evaluation use up the same number. -/
theorem spared (noAddress : Lacks "$id" root) (keeps : KeepsDialect root)
    (stands : IsPartOrText root schema) (distinct : v.hasDistinctNames = true) :
    Spared root hops schema v := by
  induction size : v.weight using Nat.strongRecOn generalizing hops schema v with
  | ind n ih =>
      have lighter (part : Json) (lt : part.weight < v.weight)
          (distinct : part.hasDistinctNames = true) (sub : Json) (stands : IsPart sub root) :
          Spared root (chainLimit root) sub part :=
        ih part.weight (size ▸ lt) (.inl stands) distinct rfl
      induction hops generalizing schema with
      | zero => exact spared_step noAddress keeps stands distinct lighter nofun
      | succ hops further =>
          refine spared_step noAddress keeps stands distinct lighter fun fewer same target stands => ?_
          cases same
          exact further stands

/-- The evaluation of a whole document that gives no part of itself an address. -/
theorem passes_of_violations (noAddress : Lacks "$id" root) (valid : violations root v = .ok []) :
    ownAddress? root = .ok none ∧ Passes ⟨root, ""⟩ (Scope.mk root "").chainLimit "" root v := by
  rw [violations] at valid
  cases read : ownAddress? root with
  | error e =>
      rw [read] at valid
      cases valid
  | ok own =>
      obtain rfl := not_addressed noAddress (.inl (.self root)) read
      rw [read] at valid
      refine ⟨rfl, ?_⟩
      cases root with
      | obj members => exact valid
      | null | bool b | int i | float x | str s | arr items => exact valid

/-- A value without violations is handed on as it is, with nothing to report, exactly when coercion
leaves it. -/
theorem check_eq_self_iff {c : Checker} (valid : violations c.schema v = .ok []) :
    c.check v = .ok ⟨v, []⟩ ↔ coerce c.schema v = .ok v := by
  rw [check_eq_ok_iff]
  constructor
  · rintro ⟨same, -⟩
    exact same
  · intro same
    exact ⟨same, [], valid, rfl⟩

/-- Coercion changes a value without violations only by overreaching. -/
theorem coerce_eq_self_iff (noAddress : Lacks "$id" root) (keeps : KeepsDialect root)
    (distinct : v.hasDistinctNames = true)
    (valid : violations root v = .ok []) :
    coerce root v = .ok v ↔ ¬ Overreaches root (chainLimit root) root v :=
  spared noAddress keeps (.inl (.self root)) distinct (passes_of_violations noAddress valid).2

end Passing

/-! ## Schemas that keep to themselves -/

/-- Every reference in a schema document is one into the document. -/
def RefersLocally (root : Json) : Prop :=
  ∀ members, IsPart (.obj members) root → ∀ ref, Table.get? members "$ref" = some (.str ref) →
    ref.toList.head? = some '#'

instance (root : Json) : Decidable (RefersLocally root) :=
  decidable_of_iff (root.everyObject fun members =>
      match Table.get? members "$ref" with
      | some (.str ref) => ref.toList.head? == some '#'
      | _ => true) <|
    everyObject_iff.trans <| forall₂_congr fun members _ => by
      split
      · next ref stated => simp [stated]
      · next other =>
          refine iff_of_true rfl ?_
          intro ref stated
          exact absurd stated (other ref)

/-- Without patterns, and with references that stay inside, coercion never overreaches. -/
theorem not_overreaches {schema : Json} (noPatterns : Lacks "patternProperties" root)
    (locals : RefersLocally root) (stands : IsPartOrText root schema) :
    ¬ Overreaches root hops schema v := by
  intro h
  induction h with
  | patterned _ _ provided =>
      obtain ⟨patterns, joined, some, -⟩ := provided.matched
      rw [joinedPatterns, noPatterns _ stands.part] at joined
      cases joined
      cases some
  | beside stated leaves =>
      rw [localReference?, stated] at leaves
      simp [locals _ stands.part _ stated] at leaves
  | member _ _ _ found _ ih => exact ih (.inl ((memberSchema?_part found).trans stands.part))
  | item _ _ found _ ih => exact ih (.inl ((itemSchema?_part found).trans stands.part))
  | reference _ led _ ih => exact ih (lookup_part led)

end RouteContract.Schema
