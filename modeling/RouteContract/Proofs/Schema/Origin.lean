import RouteContract.Proofs.Schema.Dispatch
import RouteContract.Proofs.Schema.Part
import RouteContract.Schema.Checker

/-!
# Where violations come from

Every violation that evaluation finds is the refusal by some object of the schema document, or by
the schema that refuses everything (`violations_from`), and a refusal of additional members was made
because there are some. This is so in every dialect.
-/

set_option autoImplicit false

namespace RouteContract.Schema

open RouteContract Json Pointer

/-- Where a violation comes from: a keyword of an object in the schema document. -/
structure Violation.IsRefusal (document : Json) (e : Violation) (keyword : String) : Prop where
  part : IsPart (.obj e.schema) document
  /-- Additional members are refused where there are some. -/
  additional : keyword = "additionalProperties" → ∀ members, e.value = .obj members →
    ∃ extras, additionalMembers e.schema members = .ok extras ∧ extras ≠ []

/-- A violation has its keyword in the schema document; the schema that refuses everything has
none. -/
def Violation.IsFrom (document : Json) (e : Violation) : Prop :=
  ∀ keyword, e.keyword = some keyword → e.IsRefusal document keyword

/-- The place of a violation says nothing about where it comes from. -/
theorem Violation.IsFrom.under {document : Json} {e : Violation} (h : e.IsFrom document)
    (step schemaStep : Option Step) : (e.under step schemaStep).IsFrom document :=
  fun keyword same => ⟨(h keyword same).part, (h keyword same).additional⟩

/-- All violations that an evaluation finds come from a schema document. -/
def FindsFrom (document : Json) (r : Except Fault (List Violation)) : Prop :=
  ∀ found, r = .ok found → ∀ e ∈ found, e.IsFrom document

namespace FindsFrom

variable {document : Json} {r : Except Fault (List Violation)}

theorem error (fault : Fault) : FindsFrom document (.error fault) := nofun

theorem nothing : FindsFrom document (.ok []) := by
  rintro found ⟨⟩
  exact nofun

theorem one {e : Violation} (h : e.IsFrom document) : FindsFrom document (.ok [e]) := by
  rintro found ⟨⟩ other mem
  rw [List.mem_singleton] at mem
  exact mem ▸ h

theorem refuteWhen {verdict : Except Fault Bool} {shown : List Json} {e : Violation}
    (h : e.IsFrom document) : FindsFrom document (refuteWhen verdict shown e) := by
  intro found done other mem
  rcases refuteWhen_eq_ok_iff.1 done with ⟨-, rfl⟩ | ⟨-, -, rfl⟩
  · cases mem
  · exact List.mem_singleton.1 mem ▸ h

theorem refuteUnless {verdict : Except Fault Bool} {shown : List Json} {e : Violation}
    (h : e.IsFrom document) : FindsFrom document (refuteUnless verdict shown e) :=
  refuteWhen h

theorem showing {shown : List Json} {e : Violation} (h : e.IsFrom document) :
    FindsFrom document (showing shown e) := by
  intro found done
  obtain ⟨-, rfl⟩ := showing_eq_ok_iff.1 done
  exact one h _ rfl

theorem map {α : Type} {r : Except Fault α} {f : α → List Violation}
    (h : ∀ a, r = .ok a → ∀ e ∈ f a, e.IsFrom document) : FindsFrom document (r.map f) := by
  intro found done
  obtain ⟨a, same, rfl⟩ := map_eq_ok_iff.1 done
  exact h a same

theorem bind {α : Type} {r : Except Fault α} {f : α → Except Fault (List Violation)}
    (h : ∀ a, r = .ok a → FindsFrom document (f a)) : FindsFrom document (r.bind f) := by
  intro found done
  obtain ⟨a, same, done⟩ := bind_eq_ok_iff.1 done
  exact h a same found done

/-- The messages of a refusal that does not concern additional members. -/
theorem messages {r : Except Fault (List String)} {refusal : String → Violation}
    (h : ∀ message, (refusal message).IsFrom document) :
    FindsFrom document (r.map (·.map refusal)) := by
  refine .map fun found _ e mem => ?_
  obtain ⟨message, -, rfl⟩ := List.mem_map.1 mem
  exact h message

theorem under (h : FindsFrom document r) (step schemaStep : Option Step) :
    FindsFrom document (r.map (·.map (·.under step schemaStep))) := by
  refine .map fun found same e mem => ?_
  obtain ⟨inner, listed, rfl⟩ := List.mem_map.1 mem
  exact (h found same inner listed).under step schemaStep

theorem collect {α : Type} {f : α → Except Fault (List Violation)} {xs : List α}
    {onlyFirst : Bool} (each : ∀ x ∈ xs, FindsFrom document (f x)) :
    FindsFrom document (collect onlyFirst f xs) := by
  induction xs with
  | nil => exact nothing
  | cons x rest ih =>
      have first := each x (List.mem_cons_self ..)
      have later := ih fun y mem => each y (List.mem_cons_of_mem _ mem)
      rw [Schema.collect]
      split
      · exact error _
      · exact later
      · next b bs same =>
          split
          · exact same ▸ first
          · refine .map fun found done e mem => ?_
            rcases List.mem_append.1 mem with mem | mem
            · exact first _ same e mem
            · exact later found done e mem

end FindsFrom

/-! ## Keywords -/

variable {d : Dialect} {scope : Scope} {schema : List (String × Json)} {keyword : String}
  {x v : Json}

/-- A keyword that refuses a value for another reason than additional members. -/
theorem isFrom_here (part : IsPart (.obj schema) scope.root)
    (other : keyword ≠ "additionalProperties") (message : String) :
    (Violation.here schema keyword x v message).IsFrom scope.root := by
  rintro keyword ⟨⟩
  exact ⟨part, fun same => absurd same other⟩

theorem isFrom_additional {members : List (String × Json)}
    {extras : List { entry : String × Json // entry ∈ members }}
    (part : IsPart (.obj schema) scope.root)
    (found : additionalMembers schema members = .ok extras) (some : extras ≠ [])
    (message : String) :
    (Violation.here schema keyword x (.obj members) message).IsFrom scope.root := by
  rintro keyword ⟨⟩
  refine ⟨part, ?_⟩
  rintro - members ⟨⟩
  exact ⟨extras, found, some⟩

/-- A value that is, if it is an object, a part of a schema document. -/
def StandsIn (document sub : Json) : Prop :=
  ∀ members, sub = .obj members → IsPart (.obj members) document

theorem standsIn_of_part {document sub : Json} (part : IsPart sub document) :
    StandsIn document sub := by
  rintro members rfl
  exact part

theorem standsIn_of_partOrText {document sub : Json} (h : IsPartOrText document sub) :
    StandsIn document sub := by
  rintro members rfl
  rcases h with part | ⟨s, impossible⟩
  · exact part
  · cases impossible

theorem stands_below (part : IsPart (.obj schema) scope.root) (hx : (keyword, x) ∈ schema) :
    IsPart x scope.root :=
  (IsPart.of_member hx).trans part

/-! ### Subschemas

The lemmas of this part say what each keyword that applies subschemas finds, given what the
subschemas find: those of the schema in the value itself, and any in a lighter value. -/

/-- What subschemas find in a value and in its parts comes from the schema document. -/
structure Below (d : Dialect) (scope : Scope) (hops : Nat) (base : String)
    (schema : List (String × Json)) (v : Json) : Prop where
  beside : ∀ (onlyFirst : Bool) (step schemaStep : Option Step) (sub : Json),
    IsPart sub scope.root → sub.weight < Json.weightMembers schema →
      FindsFrom scope.root (descend d scope hops onlyFirst base step schemaStep sub v)
  deeper : ∀ (onlyFirst : Bool) (step schemaStep : Option Step) (sub part : Json),
    IsPart sub scope.root → part.weight < v.weight →
      FindsFrom scope.root
        (descend d scope scope.chainLimit onlyFirst base step schemaStep sub part)

section Subschemas

variable {hops : Nat} {onlyFirst : Bool} {base : String}

theorem applyBeside_from (part : IsPart (.obj schema) scope.root)
    (below : Below d scope hops base schema v) (other : keyword ≠ "additionalProperties")
    (hx : (keyword, x) ∈ schema) (kind : Beside) :
    FindsFrom scope.root (applyBeside d scope hops onlyFirst base schema keyword x hx v kind) := by
  have inside := stands_below part hx
  have lighter := Json.weight_lt_weightMembers hx
  have refused (message : String) := isFrom_here (x := x) (v := v) part other message
  have each (subs : List Json) (same : x = .arr subs) (i : Nat) (sub : { sub // sub ∈ subs }) :
      FindsFrom scope.root
        (descend d scope hops onlyFirst base none (some (.index i)) sub.1 v) := by
    subst same
    have le := Json.weight_le_weightItems sub.2
    rw [Json.weight] at lighter
    exact below.beside onlyFirst none _ _ ((IsPart.of_item sub.2).trans inside) (by omega)
  rw [applyBeside.eq_def]
  cases kind with
  | allOf =>
      dsimp only
      split
      · exact .collect fun entry _ => each _ rfl entry.2 entry.1
      · exact .map fun _ _ _ mem => absurd mem List.not_mem_nil
  | anyOf =>
      dsimp only
      split
      · exact .refuteUnless (refused _)
      · exact .refuteUnless (refused _)
  | oneOf =>
      dsimp only
      split
      · split
        · exact .error _
        · exact .showing (refused _)
        · split
          · exact .error _
          · exact .refuteWhen (refused _)
      · exact .refuteUnless (refused _)
  | negation => exact .refuteWhen (refused _)
  | condition =>
      dsimp only
      split
      · exact .error _
      · split
        · exact .nothing
        · next sub found =>
            exact below.beside onlyFirst none _ sub ((IsPart.of_get? found).trans part)
              (Json.weight_lt_weightMembers (Table.mem_of_get? found))
  | extension =>
      dsimp only
      split
      · exact below.beside onlyFirst none none _ inside lighter
      · exact .collect fun entry _ => each _ rfl entry.2 entry.1
      · exact .map fun _ _ _ mem => absurd mem List.not_mem_nil
  | typeOrSchema =>
      dsimp only
      split
      · exact .messages refused
      · exact .messages refused
  | exclusion =>
      dsimp only
      split
      · exact .collect fun _ _ => .refuteWhen (refused _)
      · split
        · exact .error _
        · exact .collect fun _ _ => .refuteWhen (refused _)

section Items

variable {items : List Json}
  (below : Below d scope hops base schema (.arr items)) (inside : IsPart x scope.root)
include below inside

theorem descendEach_from (first : Nat) :
    FindsFrom scope.root (descendEach d scope onlyFirst base x first items) := by
  rw [descendEach]
  refine .collect fun entry _ => ?_
  have le := Json.weight_le_weightItems entry.1.2
  exact below.deeper onlyFirst _ none x _ inside (by rw [Json.weight]; omega)

theorem descendInTurn_from :
    FindsFrom scope.root (descendInTurn d scope onlyFirst base x items) := by
  rw [descendInTurn.eq_def]
  split
  · refine .collect fun entry _ => ?_
    have le := Json.weight_le_weightItems entry.1.1.2
    exact below.deeper onlyFirst _ _ _ _ ((IsPart.of_item entry.1.2.2).trans inside)
      (by rw [Json.weight]; omega)
  · split
    · exact .map fun _ _ _ mem => absurd mem List.not_mem_nil
    · exact .map fun _ _ _ mem => absurd mem List.not_mem_nil

theorem applyToItems_from (part : IsPart (.obj schema) scope.root)
    (other : keyword ≠ "additionalProperties") (kind : ForItems) :
    FindsFrom scope.root (applyToItems d scope onlyFirst base schema keyword x items kind) := by
  have refused (message : String) :=
    isFrom_here (x := x) (v := .arr items) part other message
  rw [applyToItems.eq_def]
  cases kind with
  | items =>
      dsimp only
      split
      · exact descendInTurn_from below inside
      · exact descendEach_from below inside 0
  | strictItems =>
      dsimp only
      split
      · exact descendEach_from below inside 0
      · exact descendInTurn_from below inside
  | firstItems => exact descendInTurn_from below inside
  | laterItems =>
      dsimp only
      split
      · exact .error _
      · split
        · exact .refuteWhen (refused _)
        · exact descendEach_from below inside _
  | additionalItems =>
      dsimp only
      split
      · exact .error _
      · exact .nothing
      · split
        · exact descendEach_from below inside _
        · exact .refuteWhen (refused _)
  | contains => exact .refuteUnless (refused _)
  | containsCounted =>
      dsimp only
      split
      · exact .error _
      · split
        · exact .error _
        · rw [countedFailure]
          split
          · exact .showing (isFrom_here part (by decide) _)
          · split
            · exact .refuteWhen (isFrom_here part (by decide) _)
            · exact .refuteWhen (isFrom_here part (by decide) _)

end Items

section Members

variable {members : List (String × Json)}

theorem absentMember_from (part : IsPart (.obj schema) scope.root) (name : String) (sub : Json) :
    FindsFrom scope.root (absentMember schema members name sub) := by
  rw [absentMember.eq_def]
  split
  · split
    · exact .nothing
    · split
      · exact .nothing
      · refine .one ?_
        rintro keyword ⟨⟩
        exact ⟨part, by simp⟩
  · exact .error _

theorem applyToMembers_from (part : IsPart (.obj schema) scope.root)
    (below : Below d scope hops base schema (.obj members)) (hx : (keyword, x) ∈ schema)
    (kind : ForMembers)
    (other : kind ≠ .additionalProperties → keyword ≠ "additionalProperties") :
    FindsFrom scope.root
      (applyToMembers d scope hops onlyFirst base schema keyword x hx members kind) := by
  have inside := stands_below part hx
  have lighter := Json.weight_lt_weightMembers hx
  have deeper (step schemaStep : Option Step) {sub : Json} (stands : IsPart sub scope.root)
      {name : String} {w : Json} (mem : (name, w) ∈ members) :
      FindsFrom scope.root
        (descend d scope scope.chainLimit onlyFirst base step schemaStep sub w) := by
    have lt : w.weight < Json.weightMembers members := Json.weight_lt_weightMembers mem
    exact below.deeper onlyFirst step schemaStep sub w stands (by rw [Json.weight]; omega)
  have beside (subs : List (String × Json)) (same : x = .obj subs)
      (entry : { sub // sub ∈ subs }) :
      FindsFrom scope.root
        (descend d scope hops onlyFirst base none (some (.key entry.1.1)) entry.1.2
          (.obj members)) := by
    subst same
    have lt := Json.weight_lt_weightMembers entry.2
    rw [Json.weight] at lighter
    exact below.beside onlyFirst none _ _ ((IsPart.of_member entry.2).trans inside) (by omega)
  have refused (simple : kind ≠ .additionalProperties) (message : String) :=
    isFrom_here (x := x) (v := .obj members) part (other simple) message
  rw [applyToMembers.eq_def]
  cases kind with
  | properties =>
      dsimp only
      split
      · refine .collect fun entry declared => ?_
        split
        · exact .nothing
        · next w found =>
            exact deeper _ _ ((IsPart.of_member declared).trans inside) (Table.mem_of_get? found)
      · exact .error _
  | requiringProperties =>
      dsimp only
      split
      · refine .collect fun entry declared => ?_
        split
        · exact absentMember_from part _ _
        · next w found =>
            exact deeper _ _ ((IsPart.of_member declared).trans inside) (Table.mem_of_get? found)
      · exact .error _
  | patternProperties =>
      dsimp only
      split
      · refine .collect fun entry declared => .collect fun member _ => ?_
        split
        · exact .error _
        · exact .nothing
        · exact deeper _ _ ((IsPart.of_member declared).trans inside) member.2
      · exact .error _
  | additionalProperties =>
      dsimp only
      split
      · exact .error _
      · next extras found =>
          split
          · exact .collect fun member _ => deeper _ _ inside member.2
          · split
            · next refuses =>
                refine .one (isFrom_additional part found ?_ _)
                rintro rfl
                simp at refuses
            · exact .nothing
  | propertyNames =>
      refine .collect fun member _ => ?_
      have lt := Json.weight_lt_weightMembers member.2
      exact below.deeper onlyFirst none none x _ inside (by rw [Json.weight, Json.weight]; omega)
  | dependencies =>
      dsimp only
      split
      · refine .collect fun entry _ => ?_
        split
        · split
          · exact .messages (refused (by simp))
          · exact beside _ rfl entry
        · exact .nothing
      · exact .error _
  | looseDependencies =>
      dsimp only
      split
      · refine .collect fun entry _ => ?_
        split
        · split
          · next same => exact same ▸ beside _ rfl entry
          · exact .bind fun _ _ => .messages (refused (by simp))
        · exact .nothing
      · exact .error _
  | dependentRequired =>
      dsimp only
      split
      · refine .collect fun entry _ => ?_
        split
        · exact .bind fun _ _ => .messages (refused (by simp))
        · exact .nothing
      · exact .error _
  | dependentSchemas =>
      dsimp only
      split
      · refine .collect fun entry _ => ?_
        split
        · exact beside _ rfl entry
        · exact .nothing
      · exact .error _

end Members

end Subschemas

/-! ## Schemas -/

mutual
theorem descend_from {d : Dialect} {hops : Nat} {onlyFirst : Bool} {base : String}
    {step schemaStep : Option Step} {sub : Json} (stands : StandsIn scope.root sub) (v : Json) :
    FindsFrom scope.root (descend d scope hops onlyFirst base step schemaStep sub v) := by
  cases kind : sub with
  | null | int i | float y | str s | arr items =>
      rw [descend.eq_def]
      exact .error _
  | bool b =>
      rw [descend.eq_def]
      cases b with
      | true => exact .nothing
      | false => exact .showing nofun
  | obj members =>
      have lighter : Json.weightMembers members < sub.weight := by
        rw [kind, Json.weight]
        omega
      rw [descend]
      split
      · exact .error _
      · split
        · exact .error _
        · exact (applyAll_from (stands members kind) v).under step schemaStep
termination_by (v.weight, hops, sub.weight, 0)
decreasing_by
  all_goals simp only [Prod.lex_def, true_and]
  all_goals omega

theorem applyAll_from {around own : Dialect} {hops : Nat} {onlyFirst : Bool} {base : String}
    {schema : List (String × Json)} (part : IsPart (.obj schema) scope.root) (v : Json) :
    FindsFrom scope.root (applyAll around own scope hops onlyFirst base schema v) := by
  rw [applyAll]
  refine .collect fun entry _ => ?_
  have below : FindsFrom scope.root
      (applyKeyword own scope hops onlyFirst base schema entry.1.1 entry.1.2
        (Dialect.mem_of_mem_countingKeywords entry.2) v) :=
    applyKeyword_from part (Dialect.mem_of_mem_countingKeywords entry.2) v
  split
  · exact .map fun found done => below found done
  · exact below.under none _
termination_by (v.weight, hops, Json.weightMembers schema, 2)
decreasing_by
  all_goals simp only [Prod.lex_def, true_and]
  all_goals omega

theorem applyKeyword_from {d : Dialect} {hops : Nat} {onlyFirst : Bool} {base : String}
    {schema : List (String × Json)} {keyword : String} {x : Json}
    (part : IsPart (.obj schema) scope.root) (hx : (keyword, x) ∈ schema) (v : Json) :
    FindsFrom scope.root (applyKeyword d scope hops onlyFirst base schema keyword x hx v) := by
  have other {m : Meaning} (known : d.meaning? schema keyword = some m)
      (differs : m ≠ .forMembers .additionalProperties) : keyword ≠ "additionalProperties" := by
    rintro rfl
    rw [meaning?_additionalProperties] at known
    exact differs (Option.some.inj known).symm
  have below : Below d scope hops base schema v :=
    ⟨fun _ _ _ _ inside _ => descend_from (standsIn_of_part inside) v,
      fun _ _ _ _ piece inside _ => descend_from (standsIn_of_part inside) piece⟩
  cases known : d.meaning? schema keyword with
  | none =>
      rw [applyKeyword_unknown known]
      exact .nothing
  | some m =>
      cases m with
      | assertion assertion =>
          rw [applyKeyword_assertion known]
          exact .messages (isFrom_here part (other known nofun))
      | reference =>
          by_cases isText : ∃ ref, x = .str ref
          · obtain ⟨ref, rfl⟩ := isText
            rw [applyKeyword_reference known]
            exact follow_from ref v
          · rw [applyKeyword_reference_other known hx fun ref same => isText ⟨ref, same⟩]
            exact .error _
      | recursion =>
          rw [applyKeyword_recursion known]
          exact follow_from "#" v
      | beside kind =>
          rw [applyKeyword_beside known]
          exact applyBeside_from part below (other known nofun) hx kind
      | forItems kind =>
          rw [applyKeyword_forItems known]
          split
          · exact applyToItems_from below (stands_below part hx) part (other known nofun) kind
          · exact .nothing
      | forMembers kind =>
          rw [applyKeyword_forMembers known]
          split
          · exact applyToMembers_from part below hx kind fun simple =>
              other known fun same => simple (Meaning.forMembers.inj same)
          · exact .nothing
termination_by (v.weight, hops, Json.weightMembers schema, 1)
decreasing_by
  all_goals simp only [Prod.lex_def, true_and] at *
  all_goals omega

theorem follow_from {d : Dialect} {hops : Nat} {onlyFirst : Bool} {base : String} (ref : String)
    (v : Json) : FindsFrom scope.root (follow d scope hops onlyFirst base ref v) := by
  cases hops with
  | zero =>
      rw [follow.eq_def]
      exact .error _
  | succ hops =>
      rw [follow.eq_def]
      dsimp only
      split
      · exact .error _
      · next target within found =>
          have stands := standsIn_of_partOrText (lookup_part found)
          split
          · exact .error _
          · split
            · exact descend_from stands v
            · exact applyAll_from (stands _ rfl) v
            · exact .error _
termination_by (v.weight, hops, 0, 0)
decreasing_by
  all_goals simp only [Prod.lex_def, true_and]
  all_goals omega
end

/-- **Violations come from the schema document.** -/
theorem violations_from (document v : Json) : FindsFrom document (violations document v) := by
  rw [violations]
  cases ownAddress? document with
  | error e => exact .error e
  | ok own =>
      have whole : IsPart document (Scope.mk document (own.getD "")).root := .self document
      cases document with
      | obj members => exact applyAll_from whole v
      | null | bool b | int i | float x | str s | arr items =>
          exact descend_from (standsIn_of_part whole) v

end RouteContract.Schema
