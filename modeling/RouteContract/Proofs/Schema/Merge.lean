import RouteContract.Proofs.Schema.Passing

/-!
# Keywords that are written together

Two schemas may be written into one, the keywords of one before those of the other. What a keyword
finds depends on its own value and, for the members of an object, on the keywords that declare
members (`endsAlike_applyKeyword`). So where the first schema consists of assertions and neither has
a reference, the two together ask for what each of them asks for by itself
(`applyAll_append_completes_iff`, `applyAll_append_eq_nil_iff`). Beside a reference the others do
not count at all (`applyAll_beside_reference`).
-/

set_option autoImplicit false

namespace RouteContract.Schema

open RouteContract Pointer

variable {scope : Scope} {hops : Nat} {base : String} {v : Json}

/-! ## Evaluations that end alike -/

section EndsAlike

variable {β γ : Type} {r : Except Fault (List β)} {r' : Except Fault (List γ)}

/-- Two evaluations end with the same fault, or both find nothing, or both find something. -/
def EndsAlike (r : Except Fault (List β)) (r' : Except Fault (List γ)) : Prop :=
  r.map List.isEmpty = r'.map List.isEmpty

theorem endsAlike_map (f : β → γ) (r : Except Fault (List β)) :
    EndsAlike (r.map (·.map f)) r := by
  cases r with
  | error e => rfl
  | ok found => exact congrArg Except.ok List.isEmpty_map

theorem EndsAlike.symm (h : EndsAlike r r') : EndsAlike r' r := Eq.symm h

theorem EndsAlike.trans {δ : Type} {r'' : Except Fault (List δ)} (h : EndsAlike r r')
    (h' : EndsAlike r' r'') : EndsAlike r r'' := Eq.trans h h'

theorem endsAlike_nil_iff : EndsAlike r (.ok ([] : List γ)) ↔ r = .ok [] := by
  rw [EndsAlike]
  cases r with
  | error e => exact ⟨nofun, nofun⟩
  | ok found => simp [Except.map]

theorem EndsAlike.nil_iff (h : EndsAlike r r') : r = .ok [] ↔ r' = .ok [] := by
  rw [← endsAlike_nil_iff (γ := β), ← endsAlike_nil_iff (γ := β)]
  exact ⟨h.symm.trans, h.trans⟩

theorem EndsAlike.completes_iff (h : EndsAlike r r') :
    (∃ found, r = .ok found) ↔ ∃ found, r' = .ok found := by
  rw [EndsAlike] at h
  cases r <;> cases r' <;> simp_all [Except.map]

/-- Which finding is made does not matter. -/
theorem endsAlike_refuteUnless (verdict : Except Fault Bool) (shown : List Json) (a : β) (b : γ) :
    EndsAlike (refuteUnless verdict shown a) (refuteUnless verdict shown b) := by
  have written : (refuteUnless verdict shown a).map (·.map fun _ => b) =
      refuteUnless verdict shown b := refuteWhen_map fun _ => b
  exact written ▸ (endsAlike_map _ _).symm

end EndsAlike

/-- A schema that names nothing ends as its keywords do. -/
theorem endsAlike_descend {step schemaStep : Option Step} {schema : List (String × Json)}
    (unnamed : IsUnnamed schema) :
    EndsAlike (descend .draft7 scope hops false base step schemaStep (.obj schema) v)
      (applyAll .draft7 .draft7 scope hops false base schema v) := by
  rw [unnamed.descend]
  exact endsAlike_map _ _

/-! ## What a keyword depends on -/

/-- The keywords of compiled schemas that apply other schemas, but for references. -/
def applyingKeywords : List String := ["items", "properties", "additionalProperties", "anyOf"]

/-- A keyword is an assertion, or one of those that compiled schemas have beside assertions. -/
def IsPlainKeyword (keyword : String) : Prop :=
  (Assertion.ofKeyword? keyword).isSome = true ∨ keyword ∈ applyingKeywords

instance (keyword : String) : Decidable (IsPlainKeyword keyword) :=
  inferInstanceAs (Decidable (_ ∨ _))

section Dependence

variable {schema schema' : List (String × Json)} {keyword : String} {x : Json}

/-- What an assertion finds depends on its value alone. -/
theorem endsAlike_assertion (assertion : (Assertion.ofKeyword? keyword).isSome = true)
    (hx : (keyword, x) ∈ schema) (hx' : (keyword, x) ∈ schema') :
    EndsAlike (applyKeyword .draft7 scope hops false base schema keyword x hx v)
      (applyKeyword .draft7 scope hops false base schema' keyword x hx' v) := by
  obtain ⟨assertion, known⟩ := Option.isSome_iff_exists.1 assertion
  rw [applyKeyword_assertion (meaning?_of_assertion known),
    applyKeyword_assertion (meaning?_of_assertion known)]
  exact (endsAlike_map _ _).trans (endsAlike_map _ _).symm

/-- What another keyword finds depends on its value and on the members that are declared. -/
theorem endsAlike_applying (applying : keyword ∈ applyingKeywords) (hx : (keyword, x) ∈ schema)
    (hx' : (keyword, x) ∈ schema')
    (declared : Table.get? schema "properties" = Table.get? schema' "properties")
    (patterns : Table.get? schema "patternProperties" = Table.get? schema' "patternProperties") :
    EndsAlike (applyKeyword .draft7 scope hops false base schema keyword x hx v)
      (applyKeyword .draft7 scope hops false base schema' keyword x hx' v) := by
  have additional (members : List (String × Json)) :
      additionalMembers schema members = additionalMembers schema' members := by
    rw [additionalMembers, additionalMembers, joinedPatterns, joinedPatterns, declared, patterns]
  simp only [applyingKeywords, List.mem_cons, List.not_mem_nil, or_false] at applying
  rcases applying with rfl | rfl | rfl | rfl
  · have meaning (schema : List (String × Json)) :
        Dialect.draft7.meaning? schema "items" = some (.forItems .items) := rfl
    rw [applyKeyword_forItems (meaning _), applyKeyword_forItems (meaning _)]
    cases v with
    | arr items =>
        dsimp only
        rw [applyToItems.eq_def, applyToItems.eq_def]
        cases x <;> rfl
    | null | bool b | int i | float y | str s | obj members => rfl
  · have meaning (schema : List (String × Json)) :
        Dialect.draft7.meaning? schema "properties" = some (.forMembers .properties) := rfl
    rw [applyKeyword_forMembers (meaning _), applyKeyword_forMembers (meaning _)]
    cases v with
    | obj members =>
        dsimp only
        rw [applyToMembers.eq_def, applyToMembers.eq_def]
        cases x <;> rfl
    | null | bool b | int i | float y | str s | arr items => rfl
  · rw [applyKeyword_forMembers (meaning?_additionalProperties _ _),
      applyKeyword_forMembers (meaning?_additionalProperties _ _)]
    cases v with
    | obj members =>
        dsimp only
        rw [applyToMembers.eq_def, applyToMembers.eq_def]
        dsimp only
        rw [additional]
        split
        · rfl
        · cases x <;> dsimp only <;> first | rfl | (split <;> rfl)
    | null | bool b | int i | float y | str s | arr items => rfl
  · have meaning (schema : List (String × Json)) :
        Dialect.draft7.meaning? schema "anyOf" = some (.beside .anyOf) := rfl
    rw [applyKeyword_beside (meaning _), applyKeyword_beside (meaning _), applyBeside.eq_def,
      applyBeside.eq_def]
    cases x <;> exact endsAlike_refuteUnless ..

end Dependence

/-! ## Schemas that are written together -/

section Append

variable {notes schema : List (String × Json)}

theorem get?_eq_none_of_plain (plain : ∀ key ∈ Table.keys schema, IsPlainKeyword key) {key : String}
    (special : ¬ IsPlainKeyword key) : Table.get? schema key = none :=
  Table.get?_eq_none_iff.2 fun listed => special (plain key listed)

/-- What is asked of each keyword is asked of the keywords of both schemas. -/
theorem applyAll_append_iff {P : Except Fault (List Violation) → Prop}
    (alike : ∀ r r' : Except Fault (List Violation), EndsAlike r r' → (P r ↔ P r'))
    (each : ∀ schema, Table.get? schema "$ref" = none →
      (P (applyAll .draft7 .draft7 scope hops false base schema v) ↔
        ∀ keyword x (hx : (keyword, x) ∈ schema),
          P (applyKeyword .draft7 scope hops false base schema keyword x hx v)))
    (assertions : ∀ key ∈ Table.keys notes, (Assertion.ofKeyword? key).isSome = true)
    (plain : ∀ key ∈ Table.keys schema, IsPlainKeyword key) :
    P (applyAll .draft7 .draft7 scope hops false base (notes ++ schema) v) ↔
      P (applyAll .draft7 .draft7 scope hops false base notes v) ∧
        P (applyAll .draft7 .draft7 scope hops false base schema v) := by
  have noReference : ¬ IsPlainKeyword "$ref" := by decide
  have lookup {key : String} (other : (Assertion.ofKeyword? key).isSome = false) :
      Table.get? (notes ++ schema) key = Table.get? schema key := by
    have absent : Table.get? notes key = none :=
      Table.get?_eq_none_iff.2 fun listed => by simp [assertions key listed] at other
    rw [Table.get?_append, absent, Option.none_or]
  have unreferring := get?_eq_none_of_plain plain noReference
  rw [each _ ((lookup rfl).trans unreferring), each notes
    (get?_eq_none_of_plain (fun key listed => .inl (assertions key listed)) noReference),
    each schema unreferring]
  have fromNotes {keyword : String} {x : Json} (hx : (keyword, x) ∈ notes) :
      P (applyKeyword .draft7 scope hops false base (notes ++ schema) keyword x
          (List.mem_append_left schema hx) v) ↔
        P (applyKeyword .draft7 scope hops false base notes keyword x hx v) :=
    alike _ _ (endsAlike_assertion (assertions _ (Table.mem_keys_of_mem hx)) _ _)
  have fromSchema {keyword : String} {x : Json} (hx : (keyword, x) ∈ schema) :
      P (applyKeyword .draft7 scope hops false base (notes ++ schema) keyword x
          (List.mem_append_right notes hx) v) ↔
        P (applyKeyword .draft7 scope hops false base schema keyword x hx v) := by
    refine alike _ _ ?_
    rcases plain _ (Table.mem_keys_of_mem hx) with assertion | applying
    · exact endsAlike_assertion assertion _ _
    · exact endsAlike_applying applying _ _ (lookup rfl) (lookup rfl)
  constructor
  · intro all
    exact ⟨fun keyword x hx => (fromNotes hx).1 (all ..),
      fun keyword x hx => (fromSchema hx).1 (all ..)⟩
  · rintro ⟨ofNotes, ofSchema⟩ keyword x hx
    rcases List.mem_append.1 hx with noted | listed
    · exact (fromNotes noted).2 (ofNotes keyword x noted)
    · exact (fromSchema listed).2 (ofSchema keyword x listed)

variable (assertions : ∀ key ∈ Table.keys notes, (Assertion.ofKeyword? key).isSome = true)
  (plain : ∀ key ∈ Table.keys schema, IsPlainKeyword key)
include assertions plain

/-- **Assertions before a schema** complete when they do and the schema does. -/
theorem applyAll_append_completes_iff :
    (∃ found, applyAll .draft7 .draft7 scope hops false base (notes ++ schema) v = .ok found) ↔
      (∃ found, applyAll .draft7 .draft7 scope hops false base notes v = .ok found) ∧
        ∃ found, applyAll .draft7 .draft7 scope hops false base schema v = .ok found :=
  applyAll_append_iff (P := fun r => ∃ found, r = .ok found) (fun _ _ same => same.completes_iff)
    (fun _ => applyAll_plain_completes_iff) assertions plain

/-- **Assertions before a schema** find nothing when they do not and the schema does not. -/
theorem applyAll_append_eq_nil_iff :
    applyAll .draft7 .draft7 scope hops false base (notes ++ schema) v = .ok [] ↔
      applyAll .draft7 .draft7 scope hops false base notes v = .ok [] ∧
        applyAll .draft7 .draft7 scope hops false base schema v = .ok [] :=
  applyAll_append_iff (P := (· = .ok [])) (fun _ _ same => same.nil_iff)
    (fun _ => applyAll_plain_eq_nil_iff) assertions plain

end Append

/-- **Beside a reference other keywords do not count.** -/
theorem applyAll_beside_reference {notes : List (String × Json)}
    (plain : Table.get? notes "$ref" = none) (ref : String) :
    applyAll .draft7 .draft7 scope hops false base (notes ++ [("$ref", .str ref)]) v =
      applyAll .draft7 .draft7 scope hops false base [("$ref", .str ref)] v := by
  have active : activeKeywords (notes ++ [("$ref", .str ref)]) = [("$ref", .str ref)] := by
    rw [activeKeywords, Table.get?_append, plain]
    rfl
  have meaning (schema : List (String × Json)) :
      Dialect.draft7.meaning? schema "$ref" = some .reference := rfl
  have active : Dialect.draft7.countingKeywords (notes ++ [("$ref", .str ref)]) =
      [("$ref", .str ref)] := active
  have single : Dialect.draft7.countingKeywords [("$ref", .str ref)] = [("$ref", .str ref)] :=
    activeKeywords_reference
  rw [applyAll, applyAll]
  generalize_proofs mem alone
  revert mem alone
  rw [active, single]
  intro mem alone
  congr 1
  funext part
  obtain ⟨entry, listed⟩ := part
  obtain rfl := List.mem_singleton.1 listed
  rw [applyKeyword_reference (meaning _), applyKeyword_reference (meaning _)]

end RouteContract.Schema
