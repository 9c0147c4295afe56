import RouteContract.Proofs.Schema.Address
import RouteContract.Proofs.Schema.Coercion
import RouteContract.Proofs.Schema.Keyword
import RouteContract.Proofs.Schema.Origin

/-!
# Values that pass

A value passes a schema when its evaluation comes to an end and finds nothing (`Passes`). Then it is
of a type that the schema declares (`coerceType_of_passes`), and its parts pass the subschemas that
are applied to them: a declared member the one of its name (`member_passes`), an undeclared one the
schema for additional members unless a pattern matches its name (`additional_passes`), an item the
one for its position (`item_passes_each`) or the one for all (`item_passes`). A schema with a
reference is passed by the values that pass what the reference leads to (`reference_passes`). All of
this is about subschemas that stay at the address and in the dialect around them (`StaysPut`).
-/

set_option autoImplicit false

namespace RouteContract.Schema

open RouteContract Json Pointer

variable {scope : Scope} {hops : Nat} {base : String} {schema : List (String × Json)} {x v : Json}

/-! ## Lists of evaluations -/

theorem collect_eq_nil_iff {α β : Type} {f : α → Except Fault (List β)} {xs : List α} :
    collect false f xs = .ok [] ↔ ∀ x ∈ xs, f x = .ok [] := by
  refine (decides_collect fun x (_ : x ∈ xs) => decides_self (f x)).nil_iff ?_
  rintro ⟨x, listed, e, failed⟩ nothing
  rw [nothing x listed] at failed
  cases failed

/-- A test that gave an answer for a whole list gave one for each element. -/
theorem keepIf_decided {α : Type} {f : α → Except Fault Bool} {xs kept : List α}
    (h : keepIf f xs = .ok kept) {x : α} (listed : x ∈ xs) :
    f x = .ok true ∧ x ∈ kept ∨ f x = .ok false := by
  induction xs generalizing kept with
  | nil => cases listed
  | cons y rest ih =>
      rw [keepIf] at h
      cases passes : f y with
      | error e =>
          rw [passes] at h
          cases h
      | ok b =>
          rw [passes] at h
          obtain ⟨more, done, rfl⟩ := map_eq_ok_iff.1 h
          rcases List.mem_cons.1 listed with rfl | listed
          · cases b with
            | true => exact .inl ⟨passes, by simp⟩
            | false => exact .inr passes
          · rcases ih done listed with ⟨passed, kept⟩ | failed
            · refine .inl ⟨passed, ?_⟩
              cases b with
              | true => exact List.mem_cons_of_mem _ kept
              | false => exact kept
            · exact .inr failed

/-! ## Schemas -/

/-- The evaluation of a value against the keywords of a schema, or against one that has none, finds
nothing. -/
def Passes (scope : Scope) (hops : Nat) (base : String) (schema v : Json) : Prop :=
  match schema with
  | .obj keywords => applyAll .draft7 .draft7 scope hops false base keywords v = .ok []
  | schema => descend .draft7 scope hops false base none none schema v = .ok []

/-- A schema that is read at the address and in the dialect around it. -/
structure StaysPut (schema : Json) : Prop where
  address : ∀ members, schema = .obj members → ownAddress? (.obj members) = .ok none
  dialect : ∀ members, schema = .obj members → ∀ d, Dialect.draft7.inside (.obj members) = .ok d →
    d = .draft7

/-- In a document without addresses that keeps its dialect, every schema stays put. -/
theorem staysPut {root sub : Json} (noAddress : Lacks "$id" root) (keeps : KeepsDialect root)
    (stands : IsPartOrText root sub) : StaysPut sub := by
  constructor
  · rintro members rfl
    exact ownAddress?_of_unnamed (noAddress members stands.part)
  · rintro members rfl
    exact keeps members stands.part

/-- What finds nothing at some steps passes. -/
theorem passes_of_descend {sub : Json} (stays : StaysPut sub) {step schemaStep : Option Step}
    (nothing : descend .draft7 scope hops false base step schemaStep sub v = .ok []) :
    Passes scope hops base sub v := by
  cases sub with
  | obj members =>
      have opened : Dialect.draft7.baseInside base members = .ok base := by
        have unnamed : Dialect.draft7.ownAddress? members = .ok none := stays.address members rfl
        rw [Dialect.baseInside, unnamed]
        rfl
      rw [descend, opened] at nothing
      cases read : Dialect.draft7.inside (.obj members) with
      | error e =>
          rw [read] at nothing
          cases nothing
      | ok d =>
          obtain rfl := stays.dialect members rfl d read
          rw [read] at nothing
          obtain ⟨found, done, none⟩ := map_eq_ok_iff.1 nothing
          rw [Passes, done, List.map_eq_nil_iff.1 none]
  | bool b =>
      cases b with
      | true => exact descend.eq_def ..
      | false =>
          -- The schema that refuses everything leaves no step.
          rw [descend] at nothing
          exact (descend.eq_def ..).trans nothing
  | null | int i | float y | str s | arr items =>
      simp [descend] at nothing

/-- A schema finds nothing when none of the keywords that count does. -/
theorem applyAll_eq_nil_iff :
    applyAll .draft7 .draft7 scope hops false base schema v = .ok [] ↔
      ∀ keyword x (counts : (keyword, x) ∈ activeKeywords schema),
        applyKeyword .draft7 scope hops false base schema keyword x
          (mem_of_mem_activeKeywords counts) v = .ok [] := by
  rw [applyAll, collect_eq_nil_iff]
  constructor
  · intro nothing keyword x counts
    obtain ⟨found, done, none⟩ :=
      map_eq_ok_iff.1 (nothing ⟨(keyword, x), counts⟩ (List.mem_attach ..))
    rw [done]
    split at none
    · rw [none]
    · rw [List.map_eq_nil_iff.1 none]
  · intro nothing entry _
    refine map_eq_ok_iff.2 ⟨[], nothing entry.1.1 entry.1.2 entry.2, ?_⟩
    split <;> rfl

/-- The same without a reference: then all keywords count. -/
theorem applyAll_plain_eq_nil_iff (plain : Table.get? schema "$ref" = none) :
    applyAll .draft7 .draft7 scope hops false base schema v = .ok [] ↔
      ∀ keyword x (hx : (keyword, x) ∈ schema),
        applyKeyword .draft7 scope hops false base schema keyword x hx v = .ok [] := by
  rw [applyAll_eq_nil_iff]
  simp only [activeKeywords_eq_self plain]

/-! ## Types -/

theorem any_of_isOfSomeType {types : List Json}
    (h : isOfSomeType TypeName.admits v types = .ok true) :
    types.any (admitsDeclared v) = true := by
  induction types with
  | nil => cases h
  | cons declared rest ih =>
      rw [List.any_cons, Bool.or_eq_true]
      cases declared with
      | str name =>
          rw [isOfSomeType] at h
          rw [admitsDeclared]
          cases named : TypeName.ofText? name with
          | none =>
              rw [named] at h
              cases h
          | some type =>
              simp only [named] at h ⊢
              split at h
              · next admits => exact .inl admits
              · exact .inr (ih h)
      | null | bool b | int i | float x | arr items | obj members => cases h

/-- A value that the keyword `type` finds nothing about is of a declared type, so no rule of
coercion is applied to it. -/
theorem coerceType_of_passes (hx : ("type", x) ∈ schema)
    (nothing : applyKeyword .draft7 scope hops false base schema "type" x hx v = .ok []) :
    coerceType (some x) v = .ok v := by
  have known : Assertion.ofKeyword? "type" = some .type := rfl
  rw [applyKeyword_assertion (meaning?_of_assertion known)] at nothing
  obtain ⟨found, done, none⟩ := map_eq_ok_iff.1 nothing
  obtain rfl := List.map_eq_nil_iff.1 none
  have admitted {types : List Json} (named : typeNames x = .ok types) :
      types.any (admitsDeclared v) = true := by
    rw [Assertion.failures, typeFailures, named] at done
    rcases refuteUnless_eq_ok_iff.1 done with ⟨holds, -⟩ | ⟨-, -, some⟩
    · exact any_of_isOfSomeType holds
    · cases some
  cases x with
  | str name => exact if_pos (admitted rfl)
  | arr types => exact if_pos (admitted rfl)
  | null | bool b | int i | float y | obj members => rfl

/-! ## References -/

/-- A schema that a value passes has a text for its reference, if it has one. -/
theorem reference_of_passes
    (nothing : applyAll .draft7 .draft7 scope hops false base schema v = .ok []) :
    Table.get? schema "$ref" = none ∨ ∃ ref, Table.get? schema "$ref" = some (.str ref) := by
  cases stated : Table.get? schema "$ref" with
  | none => exact .inl rfl
  | some x =>
      have counts : ("$ref", x) ∈ activeKeywords schema := by
        rw [activeKeywords.eq_def, stated]
        split
        · next impossible => cases impossible
        · next null =>
            cases null
            exact Table.mem_of_get? stated
        · next same =>
            cases same
            exact List.mem_singleton_self _
      have done := applyAll_eq_nil_iff.1 nothing _ _ counts
      have meaning : Dialect.draft7.meaning? schema "$ref" = some .reference := rfl
      by_cases isText : ∃ ref, x = .str ref
      · obtain ⟨ref, rfl⟩ := isText
        exact .inr ⟨ref, rfl⟩
      · rw [applyKeyword_reference_other meaning _ fun ref same => isText ⟨ref, same⟩] at done
        cases done

/-- A reference is one that may be followed, and leads to a schema that is passed as well. -/
theorem reference_passes {ref : String} (stated : Table.get? schema "$ref" = some (.str ref))
    (nothing : applyAll .draft7 .draft7 scope hops false base schema v = .ok [])
    (keeps : ∀ target inside, scope.lookup base ref = .ok (.obj target, inside) →
      ∀ d, Dialect.draft7.inside (.obj target) = .ok d → d = .draft7) :
    ∃ fewer target inside, hops = fewer + 1 ∧ scope.lookup base ref = .ok (target, inside) ∧
      Passes scope fewer inside target v := by
  have counts : ("$ref", .str ref) ∈ activeKeywords schema := by
    rw [activeKeywords, stated]
    exact List.mem_singleton_self _
  have meaning : Dialect.draft7.meaning? schema "$ref" = some .reference := rfl
  have done := applyAll_eq_nil_iff.1 nothing _ _ counts
  rw [applyKeyword_reference meaning] at done
  cases hops with
  | zero =>
      rw [follow] at done
      cases done
  | succ fewer =>
      rw [follow] at done
      split at done
      · cases done
      · next target inside led =>
          refine ⟨fewer, target, inside, rfl, led, ?_⟩
          split at done
          · cases done
          · next own read =>
              cases target with
              | bool b => exact done
              | obj members =>
                  obtain rfl := keeps members inside led own read
                  exact done
              | null | int i | float y | str s | arr items => cases done

/-! ## Members -/

section Members

variable {members : List (String × Json)}

theorem exists_declared_of_passes (hx : ("properties", x) ∈ schema)
    (nothing : applyKeyword .draft7 scope hops false base schema "properties" x hx
      (.obj members) = .ok []) : ∃ subs, x = .obj subs := by
  have meaning : Dialect.draft7.meaning? schema "properties" = some (.forMembers .properties) := rfl
  rw [applyKeyword_forMembers meaning] at nothing
  dsimp only at nothing
  rw [applyToMembers.eq_def] at nothing
  cases x with
  | obj subs => exact ⟨subs, rfl⟩
  | null | bool b | int i | float y | str s | arr items => cases nothing

/-- The declared members of an object that passes. -/
theorem declares_of_passes (plain : Table.get? schema "$ref" = none)
    (nothing : applyAll .draft7 .draft7 scope hops false base schema (.obj members) = .ok []) :
    ∃ declared, (Table.get? schema "properties").getD (.obj []) = .obj declared := by
  cases stated : Table.get? schema "properties" with
  | none => exact ⟨[], rfl⟩
  | some x =>
      have done := (applyAll_plain_eq_nil_iff plain).1 nothing _ _ (Table.mem_of_get? stated)
      obtain ⟨declared, rfl⟩ := exists_declared_of_passes _ done
      exact ⟨declared, rfl⟩

/-- A declared member passes the schema of its name. -/
theorem member_passes {declared : Table Json} (plain : Table.get? schema "$ref" = none)
    (nothing : applyAll .draft7 .draft7 scope hops false base schema (.obj members) = .ok [])
    (declares : (Table.get? schema "properties").getD (.obj []) = .obj declared)
    {name : String} {sub w : Json} (stated : Table.get? declared name = some sub)
    (stays : StaysPut sub) (found : Table.get? members name = some w) :
    Passes scope scope.chainLimit base sub w := by
  cases listed : Table.get? schema "properties" with
  | none =>
      rw [listed] at declares
      cases declares
      cases stated
  | some x =>
      rw [listed] at declares
      obtain rfl : x = .obj declared := declares
      have done := (applyAll_plain_eq_nil_iff plain).1 nothing _ _ (Table.mem_of_get? listed)
      have each := (decides_properties _ _ (Table.mem_of_get? listed)
        fun _ _ _ _ => decides_self _).holds_of_nil done
      exact passes_of_descend stays (each (name, sub) (Table.mem_of_get? stated) w found)

/-- Where there is a schema for additional members, it is known of each member whether it is one,
and then it passes the schema. -/
theorem additional_passes {extra : List (String × Json)} (plain : Table.get? schema "$ref" = none)
    (nothing : applyAll .draft7 .draft7 scope hops false base schema (.obj members) = .ok [])
    (stated : Table.get? schema "additionalProperties" = some (.obj extra))
    (stays : StaysPut (.obj extra)) {entry : String × Json} (listed : entry ∈ members) :
    ∃ patterns, joinedPatterns schema = .ok patterns ∧
      (isAdditional ((Table.get? schema "properties").getD (.obj [])) patterns entry.1 = .ok true ∧
          Passes scope scope.chainLimit base (.obj extra) entry.2 ∨
        isAdditional ((Table.get? schema "properties").getD (.obj [])) patterns entry.1 =
          .ok false) := by
  have done := (applyAll_plain_eq_nil_iff plain).1 nothing _ _ (Table.mem_of_get? stated)
  obtain ⟨extras, kept⟩ := exists_additional done
  rw [applyKeyword_additional kept] at done
  have each {member : { member // member ∈ members }} (additional : member ∈ extras) :
      Passes scope scope.chainLimit base (.obj extra) member.1.2 :=
    passes_of_descend stays (collect_eq_nil_iff.1 done _ additional)
  rw [additionalMembers] at kept
  split at kept
  · cases kept
  · next patterns joined =>
      refine ⟨patterns, joined, ?_⟩
      rcases keepIf_decided kept (List.mem_attach _ ⟨entry, listed⟩) with ⟨yes, mem⟩ | no
      · exact .inl ⟨yes, each mem⟩
      · exact .inr no

end Members

/-! ## Items -/

section Items

variable {items : List Json}

/-- Each item passes the schema for all items. -/
theorem item_passes {sub : List (String × Json)} (plain : Table.get? schema "$ref" = none)
    (nothing : applyAll .draft7 .draft7 scope hops false base schema (.arr items) = .ok [])
    (stated : Table.get? schema "items" = some (.obj sub)) (stays : StaysPut (.obj sub)) {i : Nat}
    {item : Json} (found : items[i]? = some item) :
    Passes scope scope.chainLimit base (.obj sub) item := by
  have done := (applyAll_plain_eq_nil_iff plain).1 nothing _ _ (Table.mem_of_get? stated)
  rw [applyKeyword_items (by simp), collect_eq_nil_iff] at done
  exact passes_of_descend stays (done (item, i) (List.mem_zipIdx_iff_getElem?.2 found))

/-- Each item passes the schema for its position. -/
theorem item_passes_each {subs : List Json} (plain : Table.get? schema "$ref" = none)
    (nothing : applyAll .draft7 .draft7 scope hops false base schema (.arr items) = .ok [])
    (stated : Table.get? schema "items" = some (.arr subs)) {i : Nat} {item sub : Json}
    (found : items[i]? = some item) (place : subs[i]? = some sub) (stays : StaysPut sub) :
    Passes scope scope.chainLimit base sub item := by
  have done := (applyAll_plain_eq_nil_iff plain).1 nothing _ _ (Table.mem_of_get? stated)
  have each := (decides_items_each _ _ (Table.mem_of_get? stated)
    fun _ _ _ _ _ => decides_self _).holds_of_nil done
  exact passes_of_descend stays (each i item sub found place)

end Items

end RouteContract.Schema
