import Mathlib.Data.List.Sigma
import RouteContract.Proofs.Json.Pointer
import RouteContract.Proofs.Schema.Keyword
import RouteContract.Proofs.Schema.Origin

/-!
# The subschemas that a keyword applies

A keyword refuses a value itself, or it applies subschemas to the value and its parts and passes on
what they find. The subschemas whose violations are passed on are listed once (`applications`): those
that are only tried, by `anyOf`, `oneOf`, `not`, `contains` and `if`, are not among them. What a
keyword finds is composed of its own refusals and of what its applications find
(`composed_of_applyKeyword`).

An application leaves a step in the path of the value, or one in that of the schema, or both. No two
applications of a keyword leave the same steps, but for those to the names of an object, which leave
none (`nodup_labels`).
-/

set_option autoImplicit false

namespace RouteContract.Schema

open RouteContract Json Pointer

/-! ## What is composed of other finds -/

/-- A list of violations is composed of own ones and of what a function finds in the members of a
list, in order. -/
inductive Composed {α : Type} (find : α → Except Fault (List Violation)) (own : Violation → Prop) :
    List α → List Violation → Prop where
  | nil : Composed find own [] []
  | own {xs : List α} {e : Violation} {found : List Violation} :
      own e → Composed find own xs found → Composed find own xs (e :: found)
  | passed {x : α} {xs : List α} {below found : List Violation} :
      find x = .ok below → Composed find own xs found → Composed find own (x :: xs) (below ++ found)

namespace Composed

variable {α β : Type} {find : α → Except Fault (List Violation)} {own : Violation → Prop}
  {xs ys : List α} {found more : List Violation}

theorem append (first : Composed find own xs found) (later : Composed find own ys more) :
    Composed find own (xs ++ ys) (found ++ more) := by
  induction first with
  | nil => exact later
  | own refused _ ih => exact .own refused ih
  | passed done _ ih =>
      rw [List.append_assoc]
      exact .passed done ih

/-- What a list of evaluations finds is composed of what each of them is composed of. -/
theorem of_collect {f : β → Except Fault (List Violation)} {g : β → List α} {zs : List β}
    (each : ∀ z ∈ zs, ∀ part, f z = .ok part → Composed find own (g z) part)
    (done : collect false f zs = .ok found) : Composed find own (zs.flatMap g) found := by
  induction zs generalizing found with
  | nil =>
      cases done
      exact .nil
  | cons z rest ih =>
      rw [collect_cons] at done
      cases head : f z with
      | error e =>
          rw [head] at done
          cases done
      | ok part =>
          rw [head] at done
          obtain ⟨later, rest_done, rfl⟩ := map_eq_ok_iff.1 done
          rw [List.flatMap_cons]
          exact (each z (List.mem_cons_self ..) part head).append
            (ih (fun y mem => each y (List.mem_cons_of_mem _ mem)) rest_done)

theorem of_collect_attach {zs : List β} {f : { z // z ∈ zs } → Except Fault (List Violation)}
    {g : β → List α} (each : ∀ z part, f z = .ok part → Composed find own (g z.1) part)
    (done : collect false f zs.attach = .ok found) : Composed find own (zs.flatMap g) found := by
  rw [← List.attach_map_subtype_val zs, List.flatMap_map]
  exact of_collect (fun z _ => each z) done

theorem one {x : α} (done : find x = .ok found) : Composed find own [x] found := by
  rw [← List.append_nil found]
  exact .passed done .nil

theorem collect (done : collect false find xs = .ok found) : Composed find own xs found := by
  have composed : Composed find own (xs.flatMap fun x => [x]) found :=
    of_collect (fun x _ part done => one done) done
  rwa [List.flatMap_singleton'] at composed

/-- Refusals by themselves. -/
theorem refusals (all : ∀ e ∈ found, own e) : Composed find own [] found := by
  induction found with
  | nil => exact .nil
  | cons e rest ih =>
      exact .own (all e (List.mem_cons_self ..)) (ih fun e mem => all e (List.mem_cons_of_mem _ mem))

/-- Each violation is an own one, or was found in a member of the list. -/
theorem cases_of_mem (composed : Composed find own xs found) {e : Violation} (mem : e ∈ found) :
    own e ∨ ∃ x ∈ xs, ∃ below, find x = .ok below ∧ e ∈ below := by
  induction composed with
  | nil => cases mem
  | own refused _ ih =>
      rcases List.mem_cons.1 mem with rfl | mem
      · exact .inl refused
      · exact ih mem
  | @passed x xs below found done _ ih =>
      rcases List.mem_append.1 mem with mem | mem
      · exact .inr ⟨x, List.mem_cons_self .., below, done, mem⟩
      · rcases ih mem with refused | ⟨y, listed, rest⟩
        · exact .inl refused
        · exact .inr ⟨y, List.mem_cons_of_mem _ listed, rest⟩

/-- Where a test passes nothing but finds in one member of the list, it selects those. The members
are told apart by labels. -/
theorem filter_eq {γ : Type} (label : α → γ) {p : Violation → Bool}
    (composed : Composed find own xs found) (ownFail : ∀ e, own e → p e = false)
    (distinct : (xs.map label).Nodup) {x : α} (mem : x ∈ xs)
    (othersFail : ∀ y ∈ xs, label y ≠ label x → ∀ below, find y = .ok below →
      below.filter p = []) :
    ∃ below, find x = .ok below ∧ found.filter p = below.filter p := by
  induction composed with
  | nil => cases mem
  | own refused _ ih =>
      obtain ⟨below, done, same⟩ := ih distinct mem othersFail
      refine ⟨below, done, ?_⟩
      rw [List.filter_cons_of_neg (by simp [ownFail _ refused]), same]
  | @passed y xs below found done rest ih =>
      obtain ⟨notLater, distinct⟩ := List.nodup_cons.1 distinct
      rw [List.filter_append]
      rcases List.mem_cons.1 mem with rfl | mem
      · refine ⟨below, done, ?_⟩
        have nothing : found.filter p = [] := by
          refine List.filter_eq_nil_iff.2 fun e listed passes => ?_
          rcases rest.cases_of_mem listed with refused | ⟨z, later, below', done', listed'⟩
          · simp [ownFail e refused] at passes
          · have other : label z ≠ label x := fun same =>
              notLater (same ▸ List.mem_map_of_mem later)
            have none := othersFail z (List.mem_cons_of_mem _ later) other below' done'
            exact List.filter_eq_nil_iff.1 none e listed' passes
        rw [nothing, List.append_nil]
      · obtain ⟨below', done', selected⟩ := ih distinct mem
          fun z later => othersFail z (List.mem_cons_of_mem _ later)
        have other : label y ≠ label x := fun same => notLater (same ▸ List.mem_map_of_mem mem)
        refine ⟨below', done', ?_⟩
        rw [othersFail y (List.mem_cons_self ..) other below done, List.nil_append, selected]

end Composed

/-! ## Applications -/

/-- A subschema that is applied to a value or a part of it, with the steps that this leaves. -/
structure Application where
  step : Option Step
  schemaStep : Option Step
  hops : Nat
  schema : Json
  value : Json

/-- What an application finds. -/
def Application.find (scope : Scope) (base : String) (a : Application) :
    Except Fault (List Violation) :=
  descend .draft7 scope a.hops false base a.step a.schemaStep a.schema a.value

/-- Whether a pattern is known to occur in a name. -/
def occurs (source name : String) : Bool :=
  match patternOccurs source name with
  | .ok b => b
  | .error _ => false

/-- The additional members of an object, as far as they are known. -/
def extras (schema members : List (String × Json)) : List (String × Json) :=
  match additionalMembers schema members with
  | .ok kept => kept.map Subtype.val
  | .error _ => []

/-- The subschema that a condition selects. -/
def selected? (scope : Scope) (hops : Nat) (base : String) (schema : List (String × Json))
    (condition v : Json) : Option (String × Json) :=
  match satisfies .draft7 scope hops base condition v with
  | .ok b =>
      let branch := if b then "then" else "else"
      (Table.get? schema branch).map (branch, ·)
  | .error _ => none

/-- The members of a list of schemas. -/
def allOfApplications (hops : Nat) (x v : Json) : List Application :=
  (x.items?.getD []).zipIdx.map fun sub => ⟨none, some (.index sub.2), hops, sub.1, v⟩

/-- The branch of a condition. -/
def branchApplications (scope : Scope) (hops : Nat) (base : String) (schema : List (String × Json))
    (x v : Json) : List Application :=
  (selected? scope hops base schema x v).toList.map fun branch =>
    ⟨none, some (.key branch.1), hops, branch.2, v⟩

/-- The schemas of the items of an array: one for each position, or one for all. -/
def itemApplications (limit : Nat) (x : Json) (items : List Json) : List Application :=
  match x with
  | .arr subs =>
      (items.zip subs).zipIdx.map fun pair =>
        ⟨some (.index pair.2), some (.index pair.2), limit, pair.1.2, pair.1.1⟩
  | _ => items.zipIdx.map fun item => ⟨some (.index item.2), none, limit, x, item.1⟩

/-- The schema of the items that have no schema of their own. -/
def additionalItemApplications (limit : Nat) (schema : List (String × Json)) (x : Json)
    (items : List Json) : List Application :=
  match fixedItems? schema, x with
  | .ok (some count), .obj _ =>
      (items.zipIdx.drop count).map fun item =>
        ⟨some (.index item.2), none, limit, x, item.1⟩
  | _, _ => []

/-- The schemas of declared members. -/
def propertyApplications (limit : Nat) (x : Json) (members : List (String × Json)) :
    List Application :=
  (x.members?.getD []).flatMap fun sub =>
    (Table.get? members sub.1).toList.map fun w =>
      ⟨some (.key sub.1), some (.key sub.1), limit, sub.2, w⟩

/-- The schemas of the members in whose names patterns occur. -/
def patternApplications (limit : Nat) (x : Json) (members : List (String × Json)) :
    List Application :=
  (x.members?.getD []).flatMap fun sub =>
    members.flatMap fun member =>
      if occurs sub.1 member.1 then
        [⟨some (.key member.1), some (.key sub.1), limit, sub.2, member.2⟩]
      else []

/-- The schema of the additional members. -/
def additionalApplications (limit : Nat) (schema : List (String × Json)) (x : Json)
    (members : List (String × Json)) : List Application :=
  match x with
  | .obj _ =>
      (extras schema members).map fun member => ⟨some (.key member.1), none, limit, x, member.2⟩
  | _ => []

/-- The schema of the names of members. -/
def nameApplications (limit : Nat) (x : Json) (members : List (String × Json)) :
    List Application :=
  members.map fun member => ⟨none, none, limit, x, .str member.1⟩

/-- The schemas that come with the presence of members. -/
def dependencyApplications (hops : Nat) (x : Json) (members : List (String × Json)) :
    List Application :=
  (x.members?.getD []).flatMap fun sub =>
    if Table.has members sub.1 then
      match sub.2 with
      | .arr _ => []
      | _ => [⟨none, some (.key sub.1), hops, sub.2, .obj members⟩]
    else []

/-- The subschemas that a keyword applies and whose violations it passes on. -/
def applications (scope : Scope) (hops : Nat) (base : String) (schema : List (String × Json))
    (keyword : String) (x v : Json) : List Application :=
  if keyword = "allOf" then allOfApplications hops x v
  else if keyword = "if" then branchApplications scope hops base schema x v
  else
    match v with
    | .arr items =>
        if keyword = "items" then itemApplications scope.chainLimit x items
        else if keyword = "additionalItems" then
          additionalItemApplications scope.chainLimit schema x items
        else []
    | .obj members =>
        if keyword = "properties" then propertyApplications scope.chainLimit x members
        else if keyword = "patternProperties" then patternApplications scope.chainLimit x members
        else if keyword = "additionalProperties" then
          additionalApplications scope.chainLimit schema x members
        else if keyword = "propertyNames" then nameApplications scope.chainLimit x members
        else if keyword = "dependencies" then dependencyApplications hops x members
        else []
    | _ => []

/-! ## What keywords find -/

/-- The refusal of a value by a keyword of a schema, at their place. -/
def IsRefusalBy (schema : List (String × Json)) (keyword : String) (x v : Json) (e : Violation) :
    Prop :=
  ∃ message, e = .here schema keyword x v message

theorem collect_attach {α β : Type} {onlyFirst : Bool} (f : α → Except Fault (List β))
    (xs : List α) :
    collect onlyFirst (fun x : { x // x ∈ xs } => f x.1) xs.attach = collect onlyFirst f xs := by
  have mapped : collect onlyFirst f (xs.attach.map Subtype.val) = _ := collect_map f _ _
  rw [List.attach_map_subtype_val] at mapped
  exact mapped.symm

section Keywords

variable {scope : Scope} {hops : Nat} {base : String} {schema : List (String × Json)}
  {keyword : String} {x v : Json} {found : List Violation}

/-- A keyword finds its own refusals and what its applications find. -/
abbrev ComposedBy (scope : Scope) (hops : Nat) (base : String) (schema : List (String × Json))
    (keyword : String) (x v : Json) (found : List Violation) : Prop :=
  Composed (Application.find scope base) (IsRefusalBy schema keyword x v)
    (applications scope hops base schema keyword x v) found

theorem composed_refusals (none : applications scope hops base schema keyword x v = [])
    (all : ∀ e ∈ found, IsRefusalBy schema keyword x v e) :
    ComposedBy scope hops base schema keyword x v found := by
  rw [ComposedBy, none]
  exact .refusals all

theorem composed_nothing (none : applications scope hops base schema keyword x v = []) :
    ComposedBy scope hops base schema keyword x v [] :=
  composed_refusals none (List.forall_mem_nil _)

theorem refused_showing {shown : List Json} {message : String}
    (done : showing shown (.here schema keyword x v message) = .ok found) :
    ∀ e ∈ found, IsRefusalBy schema keyword x v e := by
  obtain ⟨-, rfl⟩ := showing_eq_ok_iff.1 done
  exact fun e mem => ⟨message, List.mem_singleton.1 mem⟩

theorem refused_refuteWhen {verdict : Except Fault Bool} {shown : List Json} {message : String}
    (done : refuteWhen verdict shown (.here schema keyword x v message) = .ok found) :
    ∀ e ∈ found, IsRefusalBy schema keyword x v e := by
  rcases refuteWhen_eq_ok_iff.1 done with ⟨-, rfl⟩ | ⟨-, -, rfl⟩
  · exact List.forall_mem_nil _
  · exact fun e mem => ⟨message, List.mem_singleton.1 mem⟩

theorem refused_messages {r : Except Fault (List String)}
    (done : r.map (·.map (Violation.here schema keyword x v)) = .ok found) :
    ∀ e ∈ found, IsRefusalBy schema keyword x v e := by
  obtain ⟨messages, -, rfl⟩ := map_eq_ok_iff.1 done
  intro e mem
  obtain ⟨message, -, rfl⟩ := List.mem_map.1 mem
  exact ⟨message, rfl⟩

theorem refused_if {c : Bool} {message : String}
    (done : (if c = true then .ok [.here schema keyword x v message] else .ok [] :
      Except Fault (List Violation)) = .ok found) :
    ∀ e ∈ found, IsRefusalBy schema keyword x v e := by
  cases c with
  | false =>
      cases done
      exact List.forall_mem_nil _
  | true =>
      cases done
      exact fun e mem => ⟨message, List.mem_singleton.1 mem⟩

theorem applications_eq_nil (noApplicator : keyword ∉ applicators) :
    applications scope hops base schema keyword x v = [] := by
  simp only [applicators, List.mem_cons, List.not_mem_nil, or_false, not_or] at noApplicator
  cases v <;> simp [applications, noApplicator]

theorem composed_allOf (hx : ("allOf", x) ∈ schema)
    (done : applyKeyword .draft7 scope hops false base schema "allOf" x hx v = .ok found) :
    ComposedBy scope hops base schema "allOf" x v found := by
  have meaning : Dialect.draft7.meaning? schema "allOf" = some (.beside .allOf) := rfl
  rw [applyKeyword_beside meaning, applyBeside.eq_def] at done
  have listed : applications scope hops base schema "allOf" x v = allOfApplications hops x v := by
    simp [applications]
  rw [ComposedBy, listed]
  cases x with
  | arr subs =>
      dsimp only at done
      rw [collect_attach_zipIdx fun sub i =>
        descend .draft7 scope hops false base none (some (.index i)) sub v] at done
      exact .collect ((collect_map _ _ _).trans done)
  | null | bool b | int i | float y | str s | obj members =>
      obtain ⟨-, -, rfl⟩ := map_eq_ok_iff.1 done
      exact .nil

theorem composed_if (hx : ("if", x) ∈ schema)
    (done : applyKeyword .draft7 scope hops false base schema "if" x hx v = .ok found) :
    ComposedBy scope hops base schema "if" x v found := by
  have meaning : Dialect.draft7.meaning? schema "if" = some (.beside .condition) := rfl
  rw [applyKeyword_beside meaning, applyBeside.eq_def] at done
  dsimp only at done
  have listed : applications scope hops base schema "if" x v =
      branchApplications scope hops base schema x v := by
    simp [applications]
  rw [ComposedBy, listed, branchApplications, selected?]
  split at done
  · cases done
  · next b satisfied =>
      simp only [satisfied]
      split at done
      · next absent =>
          cases done
          rw [absent]
          exact .nil
      · next sub found' =>
          rw [found']
          exact .one done

/-- What a keyword for items finds. -/
theorem composed_items (hx : ("items", x) ∈ schema)
    (done : applyKeyword .draft7 scope hops false base schema "items" x hx v = .ok found) :
    ComposedBy scope hops base schema "items" x v found := by
  cases v with
  | arr items =>
      have listed : applications scope hops base schema "items" x (.arr items) =
          itemApplications scope.chainLimit x items := by
        simp [applications]
      rw [ComposedBy, listed]
      cases x with
      | arr subs =>
          rw [applyKeyword_items_each] at done
          exact .collect ((collect_map _ _ _).trans done)
      | null | bool b | int i | float y | str s | obj members =>
          rw [applyKeyword_items (by simp)] at done
          exact .collect ((collect_map _ _ _).trans done)
  | null | bool b | int i | float y | str s | obj members =>
      have meaning : Dialect.draft7.meaning? schema "items" = some (.forItems .items) := rfl
      rw [applyKeyword_forItems meaning] at done
      cases done
      exact composed_nothing (by simp [applications])

theorem composed_additionalItems (hx : ("additionalItems", x) ∈ schema)
    (done : applyKeyword .draft7 scope hops false base schema "additionalItems" x hx v = .ok found) :
    ComposedBy scope hops base schema "additionalItems" x v found := by
  have meaning : Dialect.draft7.meaning? schema "additionalItems" =
      some (.forItems .additionalItems) := rfl
  rw [applyKeyword_forItems meaning] at done
  cases v with
  | arr items =>
      dsimp only at done
      rw [applyToItems.eq_def] at done
      have listed : applications scope hops base schema "additionalItems" x (.arr items) =
          additionalItemApplications scope.chainLimit schema x items := by
        simp [applications]
      rw [ComposedBy, listed, additionalItemApplications.eq_def]
      dsimp only at done
      split at done
      · cases done
      · next every =>
          cases done
          simp only [every]
          exact .nil
      · next count fixed =>
          simp only [fixed]
          cases x with
          | obj sub =>
              dsimp only at done
              rw [descendEach] at done
              have positions : (items.attach.zipIdx.drop count).map
                  (Prod.map Subtype.val id) = items.zipIdx.drop count := by
                rw [List.map_drop, ← List.zipIdx_map, List.attach_map_subtype_val]
              refine .collect ((collect_map _ _ _).trans ?_)
              rw [← positions, collect_map]
              exact done
          | null | bool b | int i | float y | str s | arr subs =>
              exact .refusals (refused_refuteWhen done)
  | null | bool b | int i | float y | str s | obj members =>
      cases done
      exact composed_nothing (by simp [applications])

theorem composed_properties (hx : ("properties", x) ∈ schema)
    (done : applyKeyword .draft7 scope hops false base schema "properties" x hx v = .ok found) :
    ComposedBy scope hops base schema "properties" x v found := by
  have meaning : Dialect.draft7.meaning? schema "properties" = some (.forMembers .properties) := rfl
  rw [applyKeyword_forMembers meaning] at done
  cases v with
  | obj members =>
      dsimp only at done
      rw [applyToMembers.eq_def] at done
      have listed : applications scope hops base schema "properties" x (.obj members) =
          propertyApplications scope.chainLimit x members := by
        simp [applications]
      rw [ComposedBy, listed]
      cases x with
      | obj subs =>
          refine .of_collect (fun entry _ part done => ?_) done
          split at done
          · next absent =>
              cases done
              simp only [absent]
              exact .nil
          · next w present =>
              simp only [present]
              exact .one done
      | null | bool b | int i | float y | str s | arr items => cases done
  | null | bool b | int i | float y | str s | arr items =>
      cases done
      exact composed_nothing (by simp [applications])

theorem composed_patternProperties (hx : ("patternProperties", x) ∈ schema)
    (done : applyKeyword .draft7 scope hops false base schema "patternProperties" x hx v = .ok found) :
    ComposedBy scope hops base schema "patternProperties" x v found := by
  have meaning : Dialect.draft7.meaning? schema "patternProperties" =
      some (.forMembers .patternProperties) := rfl
  rw [applyKeyword_forMembers meaning] at done
  cases v with
  | obj members =>
      dsimp only at done
      rw [applyToMembers.eq_def] at done
      have listed : applications scope hops base schema "patternProperties" x (.obj members) =
          patternApplications scope.chainLimit x members := by
        simp [applications]
      rw [ComposedBy, listed]
      cases x with
      | obj subs =>
          refine .of_collect (fun entry _ part done => ?_) done
          refine .of_collect_attach (fun member part done => ?_) done
          split at done
          · cases done
          · next misses =>
              cases done
              have absent : occurs entry.1 member.1.1 = false := by rw [occurs, misses]
              rw [absent]
              exact .nil
          · next hits =>
              have present : occurs entry.1 member.1.1 = true := by rw [occurs, hits]
              rw [present]
              exact .one done
      | null | bool b | int i | float y | str s | arr items => cases done
  | null | bool b | int i | float y | str s | arr items =>
      cases done
      exact composed_nothing (by simp [applications])

theorem composed_additionalProperties (hx : ("additionalProperties", x) ∈ schema)
    (done : applyKeyword .draft7 scope hops false base schema "additionalProperties" x hx v =
      .ok found) :
    ComposedBy scope hops base schema "additionalProperties" x v found := by
  cases v with
  | obj members =>
      have listed : applications scope hops base schema "additionalProperties" x (.obj members) =
          additionalApplications scope.chainLimit schema x members := by
        simp [applications]
      rw [ComposedBy, listed]
      obtain ⟨kept, additional⟩ := exists_additional done
      have same : extras schema members = kept.map Subtype.val := by rw [extras, additional]
      rw [applyKeyword_additional additional] at done
      cases x with
      | obj sub =>
          rw [additionalApplications, same]
          refine .collect ((collect_map _ _ _).trans ?_)
          rw [collect_map]
          exact done
      | null | bool b | int i | float y | str s | arr subs => exact .refusals (refused_if done)
  | null | bool b | int i | float y | str s | arr items =>
      rw [applyKeyword_forMembers (meaning?_additionalProperties .draft7 schema)] at done
      cases done
      exact composed_nothing (by simp [applications])

theorem composed_propertyNames (hx : ("propertyNames", x) ∈ schema)
    (done : applyKeyword .draft7 scope hops false base schema "propertyNames" x hx v = .ok found) :
    ComposedBy scope hops base schema "propertyNames" x v found := by
  have meaning : Dialect.draft7.meaning? schema "propertyNames" =
      some (.forMembers .propertyNames) := rfl
  rw [applyKeyword_forMembers meaning] at done
  cases v with
  | obj members =>
      dsimp only at done
      rw [applyToMembers.eq_def] at done
      have listed : applications scope hops base schema "propertyNames" x (.obj members) =
          nameApplications scope.chainLimit x members := by
        simp [applications]
      rw [ComposedBy, listed]
      dsimp only at done
      rw [collect_attach fun member : String × Json =>
        descend .draft7 scope scope.chainLimit false base none none x (.str member.1)] at done
      exact .collect ((collect_map _ _ _).trans done)
  | null | bool b | int i | float y | str s | arr items =>
      cases done
      exact composed_nothing (by simp [applications])

theorem composed_dependencies (hx : ("dependencies", x) ∈ schema)
    (done : applyKeyword .draft7 scope hops false base schema "dependencies" x hx v = .ok found) :
    ComposedBy scope hops base schema "dependencies" x v found := by
  have meaning : Dialect.draft7.meaning? schema "dependencies" =
      some (.forMembers .dependencies) := rfl
  rw [applyKeyword_forMembers meaning] at done
  cases v with
  | obj members =>
      dsimp only at done
      rw [applyToMembers.eq_def] at done
      have listed : applications scope hops base schema "dependencies" x (.obj members) =
          dependencyApplications hops x members := by
        simp [applications]
      rw [ComposedBy, listed]
      cases x with
      | obj subs =>
          refine .of_collect_attach (fun entry part done => ?_) done
          split at done
          · next present =>
              simp only [present, if_true]
              cases sub : entry.1.2 with
              | arr names =>
                  simp only [sub] at done ⊢
                  exact .refusals (refused_messages done)
              | null | bool b | int i | float y | str s | obj more =>
                  simp only [sub] at done ⊢
                  exact .one done
          · next absent =>
              cases done
              simp only [absent]
              exact .nil
      | null | bool b | int i | float y | str s | arr items => cases done
  | null | bool b | int i | float y | str s | arr items =>
      cases done
      exact composed_nothing (by simp [applications])

/-- Keywords that only try subschemas. -/
def tryingKeywords : List String := ["anyOf", "oneOf", "not", "contains"]

/-- A keyword that only tries subschemas finds refusals of its own. -/
theorem refused_of_trying (known : keyword ∈ tryingKeywords) (hx : (keyword, x) ∈ schema)
    (done : applyKeyword .draft7 scope hops false base schema keyword x hx v = .ok found) :
    ∀ e ∈ found, IsRefusalBy schema keyword x v e := by
  simp only [tryingKeywords, List.mem_cons, List.not_mem_nil, or_false] at known
  rcases known with rfl | rfl | rfl | rfl
  · have meaning : Dialect.draft7.meaning? schema "anyOf" = some (.beside .anyOf) := rfl
    rw [applyKeyword_beside meaning, applyBeside.eq_def] at done
    dsimp only at done
    split at done
    · exact refused_refuteWhen done
    · exact refused_refuteWhen done
  · have meaning : Dialect.draft7.meaning? schema "oneOf" = some (.beside .oneOf) := rfl
    rw [applyKeyword_beside meaning, applyBeside.eq_def] at done
    dsimp only at done
    split at done
    · split at done
      · cases done
      · exact refused_showing done
      · split at done
        · cases done
        · exact refused_refuteWhen done
    · exact refused_refuteWhen done
  · have meaning : Dialect.draft7.meaning? schema "not" = some (.beside .negation) := rfl
    rw [applyKeyword_beside meaning, applyBeside.eq_def] at done
    exact refused_refuteWhen done
  · have meaning : Dialect.draft7.meaning? schema "contains" = some (.forItems .contains) := rfl
    rw [applyKeyword_forItems meaning] at done
    split at done
    · rw [applyToItems.eq_def] at done
      exact refused_refuteWhen done
    · cases done
      exact List.forall_mem_nil _

theorem composed_trying (known : keyword ∈ tryingKeywords) (hx : (keyword, x) ∈ schema)
    (done : applyKeyword .draft7 scope hops false base schema keyword x hx v = .ok found) :
    ComposedBy scope hops base schema keyword x v found := by
  refine composed_refusals ?_ (refused_of_trying known hx done)
  simp only [tryingKeywords, List.mem_cons, List.not_mem_nil, or_false] at known
  rcases known with rfl | rfl | rfl | rfl <;> cases v <;> simp [applications]

theorem composed_assertion {assertion : Assertion}
    (known : Assertion.ofKeyword? keyword = some assertion) (hx : (keyword, x) ∈ schema)
    (done : applyKeyword .draft7 scope hops false base schema keyword x hx v = .ok found) :
    ComposedBy scope hops base schema keyword x v found := by
  rw [applyKeyword_assertion (meaning?_of_assertion known)] at done
  refine composed_refusals (applications_eq_nil ?_) (refused_messages done)
  intro applicator
  simp only [applicators, List.mem_cons, List.not_mem_nil, or_false] at applicator
  rcases applicator with rfl | rfl | rfl | rfl | rfl | rfl | rfl | rfl | rfl | rfl | rfl | rfl | rfl
    <;> cases known

/-- **A keyword finds its own refusals and what its applications find**, and nothing else. -/
theorem composed_of_applyKeyword (noReference : keyword ≠ "$ref") (hx : (keyword, x) ∈ schema)
    (done : applyKeyword .draft7 scope hops false base schema keyword x hx v = .ok found) :
    ComposedBy scope hops base schema keyword x v found := by
  cases known : Assertion.ofKeyword? keyword with
  | some assertion => exact composed_assertion known hx done
  | none =>
      by_cases applicator : keyword ∈ applicators
      · simp only [applicators, List.mem_cons, List.not_mem_nil, or_false] at applicator
        rcases applicator with rfl | rfl | rfl | rfl | rfl | rfl | rfl | rfl | rfl | rfl | rfl | rfl |
          rfl
        · exact composed_allOf hx done
        · exact composed_trying (by decide) hx done
        · exact composed_trying (by decide) hx done
        · exact composed_trying (by decide) hx done
        · exact composed_if hx done
        · exact composed_items hx done
        · exact composed_additionalItems hx done
        · exact composed_trying (by decide) hx done
        · exact composed_properties hx done
        · exact composed_patternProperties hx done
        · exact composed_additionalProperties hx done
        · exact composed_propertyNames hx done
        · exact composed_dependencies hx done
      · rw [applyKeyword_unknown (meaning?_eq_none known noReference applicator),
          Except.ok.injEq] at done
        subst done
        exact composed_nothing (applications_eq_nil applicator)

end Keywords

/-! ## Where applications lead -/

section Facts

variable {scope : Scope} {hops : Nat} {base : String} {schema : List (String × Json)}
  {keyword : String} {x v : Json}

/-- What holds of the applications of each keyword holds of all. -/
theorem applications_cases {motive : List Application → Prop} (nothing : motive [])
    (allOf : keyword = "allOf" → motive (allOfApplications hops x v))
    (branch : keyword = "if" → motive (branchApplications scope hops base schema x v))
    (item : ∀ items, keyword = "items" → v = .arr items →
      motive (itemApplications scope.chainLimit x items))
    (additionalItem : ∀ items, keyword = "additionalItems" → v = .arr items →
      motive (additionalItemApplications scope.chainLimit schema x items))
    (property : ∀ members, keyword = "properties" → v = .obj members →
      motive (propertyApplications scope.chainLimit x members))
    (pattern : ∀ members, keyword = "patternProperties" → v = .obj members →
      motive (patternApplications scope.chainLimit x members))
    (additional : ∀ members, keyword = "additionalProperties" → v = .obj members →
      motive (additionalApplications scope.chainLimit schema x members))
    (name : ∀ members, keyword = "propertyNames" → v = .obj members →
      motive (nameApplications scope.chainLimit x members))
    (dependency : ∀ members, keyword = "dependencies" → v = .obj members →
      motive (dependencyApplications hops x members)) :
    motive (applications scope hops base schema keyword x v) := by
  rw [applications.eq_def]
  split
  · next same => exact allOf same
  · split
    · next same => exact branch same
    · split
      · split
        · next same => exact item _ same rfl
        · split
          · next same => exact additionalItem _ same rfl
          · exact nothing
      · split
        · next same => exact property _ same rfl
        · split
          · next same => exact pattern _ same rfl
          · split
            · next same => exact additional _ same rfl
            · split
              · next same => exact name _ same rfl
              · split
                · next same => exact dependency _ same rfl
                · exact nothing
      · exact nothing

/-- Where an application leads: to a part of the schema and to a part or a name of the value, and,
if to the value itself, then to a lighter schema. -/
structure Application.IsBelow (hops : Nat) (schema : List (String × Json)) (v : Json)
    (a : Application) : Prop where
  stands : IsPart a.schema (.obj schema)
  part : IsPart a.value v ∨ ∃ name, a.value = .str name
  lighter : a.value.weight < v.weight ∨
    a.value = v ∧ a.hops = hops ∧ a.schema.weight < Json.weightMembers schema

section Below

variable {step schemaStep : Option Step} {limit : Nat} {sub : Json}

theorem isBelow_beside {entry : String × Json} (hx : entry ∈ schema) (inside : IsPart sub entry.2) :
    Application.IsBelow hops schema v ⟨step, schemaStep, hops, sub, v⟩ :=
  ⟨inside.trans (.of_member hx), .inl (.self v),
    .inr ⟨rfl, rfl, Nat.lt_of_le_of_lt inside.weight_le (Json.weight_lt_weightMembers hx)⟩⟩

theorem isBelow_item (hx : (keyword, x) ∈ schema) (inside : IsPart sub x) {items : List Json}
    {item : Json} (mem : item ∈ items) :
    Application.IsBelow hops schema (.arr items) ⟨step, schemaStep, limit, sub, item⟩ := by
  refine ⟨inside.trans (.of_member hx), .inl (.of_item mem), .inl ?_⟩
  have le := Json.weight_le_weightItems mem
  rw [Json.weight.eq_def (.arr items)]
  dsimp only
  omega

theorem isBelow_member (hx : (keyword, x) ∈ schema) (inside : IsPart sub x)
    {members : List (String × Json)} {member : String × Json} (mem : member ∈ members) :
    Application.IsBelow hops schema (.obj members) ⟨step, schemaStep, limit, sub, member.2⟩ := by
  refine ⟨inside.trans (.of_member hx), .inl (.of_member mem), .inl ?_⟩
  have lt := Json.weight_lt_weightMembers mem
  rw [Json.weight.eq_def (.obj members)]
  dsimp only
  omega

end Below

theorem sublist_keepIf {α : Type} {f : α → Except Fault Bool} {xs kept : List α}
    (h : keepIf f xs = .ok kept) : kept.Sublist xs := by
  induction xs generalizing kept with
  | nil =>
      cases h
      exact .slnil
  | cons x rest ih =>
      rw [keepIf] at h
      split at h
      · cases h
      · next b _ =>
          obtain ⟨more, done, rfl⟩ := map_eq_ok_iff.1 h
          cases b with
          | true => exact (ih done).cons_cons x
          | false => exact (ih done).cons x

theorem sublist_extras (members : List (String × Json)) :
    (extras schema members).Sublist members := by
  rw [extras]
  split
  · next kept found =>
      rw [additionalMembers] at found
      split at found
      · cases found
      · have sub := (sublist_keepIf found).map Subtype.val
        rwa [List.attach_map_subtype_val] at sub
  · exact List.nil_sublist _

section Members

variable {limit : Nat} {members : List (String × Json)} {a : Application}

theorem eq_of_mem_branchApplications (mem : a ∈ branchApplications scope hops base schema x v) :
    ∃ branch sub, (branch = "then" ∨ branch = "else") ∧ (branch, sub) ∈ schema ∧
      a = ⟨none, some (.key branch), hops, sub, v⟩ := by
  obtain ⟨branch, chosen, rfl⟩ := List.mem_map.1 mem
  rw [Option.mem_toList, selected?] at chosen
  split at chosen
  · next b _ =>
      obtain ⟨sub, found, rfl⟩ := Option.map_eq_some_iff.1 chosen
      exact ⟨_, sub, by cases b <;> simp, Table.mem_of_get? found, rfl⟩
  · cases chosen

theorem eq_of_mem_additionalItemApplications {items : List Json}
    (mem : a ∈ additionalItemApplications limit schema x items) :
    ∃ item i, item ∈ items ∧ a = ⟨some (.index i), none, limit, x, item⟩ := by
  rw [additionalItemApplications.eq_def] at mem
  split at mem
  · obtain ⟨item, listed, rfl⟩ := List.mem_map.1 mem
    exact ⟨item.1, item.2, List.fst_mem_of_mem_zipIdx (List.mem_of_mem_drop listed), rfl⟩
  · cases mem

theorem eq_of_mem_propertyApplications (mem : a ∈ propertyApplications limit x members) :
    ∃ sub ∈ x.members?.getD [], ∃ w, (sub.1, w) ∈ members ∧
      a = ⟨some (.key sub.1), some (.key sub.1), limit, sub.2, w⟩ := by
  obtain ⟨sub, declared, below⟩ := List.mem_flatMap.1 mem
  obtain ⟨w, found, rfl⟩ := List.mem_map.1 below
  exact ⟨sub, declared, w, Table.mem_of_get? (Option.mem_toList.1 found), rfl⟩

theorem eq_of_mem_patternApplications (mem : a ∈ patternApplications limit x members) :
    ∃ sub ∈ x.members?.getD [], ∃ member ∈ members,
      a = ⟨some (.key member.1), some (.key sub.1), limit, sub.2, member.2⟩ := by
  obtain ⟨sub, declared, below⟩ := List.mem_flatMap.1 mem
  obtain ⟨member, listed, below⟩ := List.mem_flatMap.1 below
  split at below
  · exact ⟨sub, declared, member, listed, List.mem_singleton.1 below⟩
  · cases below

theorem eq_of_mem_additionalApplications (mem : a ∈ additionalApplications limit schema x members) :
    ∃ member ∈ members, a = ⟨some (.key member.1), none, limit, x, member.2⟩ := by
  cases x with
  | obj sub =>
      obtain ⟨member, listed, rfl⟩ := List.mem_map.1 mem
      exact ⟨member, (sublist_extras members).subset listed, rfl⟩
  | null | bool b | int i | float y | str s | arr items => cases mem

theorem eq_of_mem_dependencyApplications (mem : a ∈ dependencyApplications hops x members) :
    ∃ sub ∈ x.members?.getD [], a = ⟨none, some (.key sub.1), hops, sub.2, .obj members⟩ := by
  obtain ⟨sub, declared, below⟩ := List.mem_flatMap.1 mem
  refine ⟨sub, declared, ?_⟩
  split at below
  · split at below
    · cases below
    · exact List.mem_singleton.1 below
  · cases below

end Members

/-- **Every application leads further down.** -/
theorem isBelow_of_mem_applications (hx : (keyword, x) ∈ schema) :
    ∀ a ∈ applications scope hops base schema keyword x v, a.IsBelow hops schema v := by
  have item_part {sub : Json} (mem : sub ∈ x.items?.getD []) : IsPart sub x := by
    cases x with
    | arr items => exact .of_item mem
    | null | bool b | int i | float y | str s | obj members => cases mem
  have member_part {sub : String × Json} (mem : sub ∈ x.members?.getD []) : IsPart sub.2 x := by
    cases x with
    | obj members => exact .of_member mem
    | null | bool b | int i | float y | str s | arr items => cases mem
  refine applications_cases (motive := fun as => ∀ a ∈ as, a.IsBelow hops schema v)
    (List.forall_mem_nil _) ?_ ?_ ?_ ?_ ?_ ?_ ?_ ?_ ?_
  · rintro - a mem
    obtain ⟨sub, listed, rfl⟩ := List.mem_map.1 mem
    exact isBelow_beside hx (item_part (List.fst_mem_of_mem_zipIdx listed))
  · rintro - a mem
    obtain ⟨branch, sub, -, stated, rfl⟩ := eq_of_mem_branchApplications mem
    exact isBelow_beside stated (.self _)
  · rintro items - rfl a mem
    cases x with
    | arr subs =>
        obtain ⟨pair, listed, rfl⟩ := List.mem_map.1 mem
        have both := List.of_mem_zip (List.fst_mem_of_mem_zipIdx listed)
        exact isBelow_item hx (.of_item both.2) both.1
    | null | bool b | int i | float y | str s | obj members =>
        obtain ⟨item, listed, rfl⟩ := List.mem_map.1 mem
        exact isBelow_item hx (.self _) (List.fst_mem_of_mem_zipIdx listed)
  · rintro items - rfl a mem
    obtain ⟨item, i, listed, rfl⟩ := eq_of_mem_additionalItemApplications mem
    exact isBelow_item hx (.self _) listed
  · rintro members - rfl a mem
    obtain ⟨sub, declared, w, present, rfl⟩ := eq_of_mem_propertyApplications mem
    exact isBelow_member hx (member_part declared) present
  · rintro members - rfl a mem
    obtain ⟨sub, declared, member, listed, rfl⟩ := eq_of_mem_patternApplications mem
    exact isBelow_member hx (member_part declared) listed
  · rintro members - rfl a mem
    obtain ⟨member, listed, rfl⟩ := eq_of_mem_additionalApplications mem
    exact isBelow_member hx (.self _) listed
  · rintro members - rfl a mem
    obtain ⟨member, listed, rfl⟩ := List.mem_map.1 mem
    refine ⟨.of_member hx, .inr ⟨member.1, rfl⟩, .inl ?_⟩
    have lt := Json.weight_lt_weightMembers listed
    rw [Json.weight, Json.weight]
    omega
  · rintro members - rfl a mem
    obtain ⟨sub, declared, rfl⟩ := eq_of_mem_dependencyApplications mem
    exact isBelow_beside hx (member_part declared)

/-! ## How applications are told apart -/

/-- The steps that an application leaves, as pointers write them. -/
def Application.label (a : Application) : Option String × Option String :=
  (a.step.map Step.segment, a.schemaStep.map Step.segment)

theorem segment_index_injective : Function.Injective fun i : Nat => (Step.index i).segment := by
  intro i j same
  have read := position?_toString i
  rw [show toString i = toString j from same, position?_toString] at read
  exact (Option.some.inj read).symm

/-- Labels are distinct that come from distinct keys. -/
theorem nodup_labels_map {α κ : Type} {xs : List α} {key : α → κ} {f : α → Application}
    (keys : (xs.map key).Nodup) {h : κ → Option String × Option String}
    (injective : Function.Injective h) (read : ∀ x, (f x).label = h (key x)) :
    ((xs.map f).map Application.label).Nodup := by
  have same : (xs.map f).map Application.label = (xs.map key).map h := by
    rw [List.map_map, List.map_map]
    exact List.map_congr_left fun x _ => read x
  rw [same]
  exact keys.map injective

/-- Labels are distinct in which distinct names can be read. -/
theorem nodup_labels_flatMap {xs : List (String × Json)} {f : String × Json → List Application}
    {p : Option String × Option String → Option String} (names : (Table.keys xs).Nodup)
    (inner : ∀ x, ((f x).map Application.label).Nodup)
    (read : ∀ x, ∀ a ∈ f x, p a.label = some x.1) :
    ((xs.flatMap f).map Application.label).Nodup := by
  rw [List.map_flatMap, List.nodup_flatMap]
  refine ⟨fun x _ => inner x, (List.pairwise_map.1 names).imp fun {x y} other label hx hy => ?_⟩
  obtain ⟨a, ha, rfl⟩ := List.mem_map.1 hx
  obtain ⟨b, hb, same⟩ := List.mem_map.1 hy
  have name := read y b hb
  rw [same, read x a ha] at name
  exact other (Option.some.inj name)

theorem nodup_keys_of_sublist {xs ys : List (String × Json)} (sub : xs.Sublist ys)
    (distinct : (Table.keys ys).Nodup) : (Table.keys xs).Nodup :=
  distinct.sublist (sub.map _)

section Distinct

variable {limit : Nat} {members : List (String × Json)}
  (declared : (Table.keys (x.members?.getD [])).Nodup)
include declared

theorem nodup_labels_patternApplications (present : (Table.keys members).Nodup) :
    ((patternApplications limit x members).map Application.label).Nodup := by
  refine nodup_labels_flatMap (p := Prod.snd) declared (fun sub => ?_) fun sub a mem => ?_
  · refine nodup_labels_flatMap (p := Prod.fst) present (fun member => ?_) fun member a mem => ?_
    · split <;> simp
    · split at mem
      · rw [List.mem_singleton.1 mem]
        rfl
      · cases mem
  · obtain ⟨member, -, mem⟩ := List.mem_flatMap.1 mem
    split at mem
    · rw [List.mem_singleton.1 mem]
      rfl
    · cases mem

theorem nodup_labels_dependencyApplications :
    ((dependencyApplications hops x members).map Application.label).Nodup := by
  refine nodup_labels_flatMap (p := Prod.snd) declared (fun sub => ?_) fun sub a mem => ?_
  · split
    · split <;> simp
    · simp
  · split at mem
    · split at mem
      · cases mem
      · rw [List.mem_singleton.1 mem]
        rfl
    · cases mem

end Distinct

/-- **Applications are told apart by their steps**, but for those to names. -/
theorem nodup_labels (declared : (Table.keys (x.members?.getD [])).Nodup)
    (present : ∀ members, v = .obj members → (Table.keys members).Nodup)
    (noNames : keyword ≠ "propertyNames") :
    ((applications scope hops base schema keyword x v).map Application.label).Nodup := by
  have positions {α : Type} (xs : List α) : (xs.zipIdx.map Prod.snd).Nodup :=
    List.nodup_zipIdx_map_snd xs
  have index {h : String → Option String × Option String} (one : Function.Injective h) :
      Function.Injective fun i => h (Step.index i).segment :=
    one.comp segment_index_injective
  have schemaOnly : Function.Injective fun s : String => ((none : Option String), some s) :=
    fun s t same => Option.some.inj (Prod.mk.inj same).2
  have valueOnly : Function.Injective fun s : String => (some s, (none : Option String)) :=
    fun s t same => Option.some.inj (Prod.mk.inj same).1
  have both : Function.Injective fun s : String => (some s, some s) :=
    fun s t same => Option.some.inj (Prod.mk.inj same).1
  refine applications_cases (motive := fun as => (as.map Application.label).Nodup) .nil
    ?_ ?_ ?_ ?_ ?_ ?_ ?_ ?_ ?_
  · intro _
    exact nodup_labels_map (positions _) (index schemaOnly) fun _ => rfl
  · intro _
    rw [branchApplications]
    cases selected? scope hops base schema x v <;> simp
  · rintro items - -
    cases x with
    | arr subs => exact nodup_labels_map (positions _) (index both) fun _ => rfl
    | null | bool b | int i | float y | str s | obj members =>
        exact nodup_labels_map (positions _) (index valueOnly) fun _ => rfl
  · rintro items - -
    rw [additionalItemApplications.eq_def]
    split
    · refine nodup_labels_map ?_ (index valueOnly) fun _ => rfl
      exact (positions items).sublist ((List.drop_sublist _ _).map _)
    · exact .nil
  · rintro members - -
    refine nodup_labels_flatMap (p := Prod.snd) declared (fun sub => ?_) fun sub a mem => ?_
    · cases Table.get? members sub.1 <;> simp
    · obtain ⟨w, -, rfl⟩ := List.mem_map.1 mem
      rfl
  · exact fun members _ object => nodup_labels_patternApplications declared (present members object)
  · rintro members - object
    cases x with
    | obj sub =>
        exact nodup_labels_map (nodup_keys_of_sublist (sublist_extras members)
          (present members object)) valueOnly fun _ => rfl
    | null | bool b | int i | float y | str s | arr items => exact .nil
  · exact fun members same _ => absurd same noNames
  · exact fun members _ _ => nodup_labels_dependencyApplications declared

/-- Which steps an application leaves, in the value and in the schema. -/
def Application.HasShape (inValue inSchema : Bool) (a : Application) : Prop :=
  a.step.isSome = inValue ∧ a.schemaStep.isSome = inSchema

/-- The applications of one keyword leave steps alike. -/
theorem exists_shape : ∃ inValue inSchema,
    ∀ a ∈ applications scope hops base schema keyword x v, a.HasShape inValue inSchema := by
  refine applications_cases
    (motive := fun as => ∃ inValue inSchema, ∀ a ∈ as, a.HasShape inValue inSchema)
    ⟨true, true, List.forall_mem_nil _⟩ ?_ ?_ ?_ ?_ ?_ ?_ ?_ ?_ ?_
  · refine fun _ => ⟨false, true, fun a mem => ?_⟩
    obtain ⟨sub, -, rfl⟩ := List.mem_map.1 mem
    exact ⟨rfl, rfl⟩
  · refine fun _ => ⟨false, true, fun a mem => ?_⟩
    obtain ⟨branch, sub, -, -, rfl⟩ := eq_of_mem_branchApplications mem
    exact ⟨rfl, rfl⟩
  · rintro items - -
    cases x with
    | arr subs =>
        refine ⟨true, true, fun a mem => ?_⟩
        obtain ⟨pair, -, rfl⟩ := List.mem_map.1 mem
        exact ⟨rfl, rfl⟩
    | null | bool b | int i | float y | str s | obj members =>
        refine ⟨true, false, fun a mem => ?_⟩
        obtain ⟨item, -, rfl⟩ := List.mem_map.1 mem
        exact ⟨rfl, rfl⟩
  · refine fun items _ _ => ⟨true, false, fun a mem => ?_⟩
    obtain ⟨item, i, -, rfl⟩ := eq_of_mem_additionalItemApplications mem
    exact ⟨rfl, rfl⟩
  · refine fun members _ _ => ⟨true, true, fun a mem => ?_⟩
    obtain ⟨sub, -, w, -, rfl⟩ := eq_of_mem_propertyApplications mem
    exact ⟨rfl, rfl⟩
  · refine fun members _ _ => ⟨true, true, fun a mem => ?_⟩
    obtain ⟨sub, -, member, -, rfl⟩ := eq_of_mem_patternApplications mem
    exact ⟨rfl, rfl⟩
  · refine fun members _ _ => ⟨true, false, fun a mem => ?_⟩
    obtain ⟨member, -, rfl⟩ := eq_of_mem_additionalApplications mem
    exact ⟨rfl, rfl⟩
  · refine fun members _ _ => ⟨false, false, fun a mem => ?_⟩
    obtain ⟨member, -, rfl⟩ := List.mem_map.1 mem
    exact ⟨rfl, rfl⟩
  · refine fun members _ _ => ⟨false, true, fun a mem => ?_⟩
    obtain ⟨sub, -, rfl⟩ := eq_of_mem_dependencyApplications mem
    exact ⟨rfl, rfl⟩

/-- Steps that are left alike and written alike are the same, whatever follows them. -/
theorem label_eq_of_append {a b : Application} {inValue inSchema : Bool}
    (shape : a.HasShape inValue inSchema) (shape' : b.HasShape inValue inSchema)
    {path path' schemaPath schemaPath' : List Step}
    (same : (a.step.toList ++ path).map Step.segment = (b.step.toList ++ path').map Step.segment)
    (sameSchema : (a.schemaStep.toList ++ schemaPath).map Step.segment =
      (b.schemaStep.toList ++ schemaPath').map Step.segment) : a.label = b.label := by
  have first {s t : Option Step} {p q : List Step} (alike : s.isSome = t.isSome)
      (same : (s.toList ++ p).map Step.segment = (t.toList ++ q).map Step.segment) :
      s.map Step.segment = t.map Step.segment := by
    cases s <;> cases t
    · rfl
    · cases alike
    · cases alike
    · exact congrArg some (List.cons.inj same).1
  rw [Application.label, Application.label, first (shape.1.trans shape'.1.symm) same,
    first (shape.2.trans shape'.2.symm) sameSchema]

/-- A condition applies the schema of one of its branches. -/
theorem branch_of_mem_applications {a : Application}
    (mem : a ∈ applications scope hops base schema "if" x v) :
    a.schemaStep = some (.key "then") ∨ a.schemaStep = some (.key "else") := by
  have listed : applications scope hops base schema "if" x v =
      branchApplications scope hops base schema x v := by
    simp [applications]
  rw [listed] at mem
  obtain ⟨branch, sub, known, -, rfl⟩ := eq_of_mem_branchApplications mem
  rcases known with rfl | rfl
  · exact .inl rfl
  · exact .inr rfl

/-- Keywords for names apply schemas to texts. -/
theorem name_of_mem_applications {a : Application}
    (mem : a ∈ applications scope hops base schema "propertyNames" x v) :
    ∃ name, a.value = .str name := by
  cases v with
  | obj members =>
      have listed : applications scope hops base schema "propertyNames" x (.obj members) =
          nameApplications scope.chainLimit x members := by
        simp [applications]
      rw [listed] at mem
      obtain ⟨member, -, rfl⟩ := List.mem_map.1 mem
      exact ⟨_, rfl⟩
  | null | bool b | int i | float y | str s | arr items => simp [applications] at mem

/-- What an application finds is behind its steps, but for the refusal by the schema that refuses
everything. -/
theorem cases_of_mem_find {a : Application} {below : List Violation}
    (keeps : ∀ sub, a.schema = .obj sub → ∀ d, Dialect.draft7.inside (.obj sub) = .ok d → d = .draft7)
    (done : a.find scope base = .ok below) {e : Violation} (mem : e ∈ below) :
    e.keyword = none ∧ e.path = [] ∧ e.schemaPath = [] ∨
      ∃ sub inside found, a.schema = .obj sub ∧ baseInside base (.obj sub) = .ok inside ∧
        applyAll .draft7 .draft7 scope a.hops false inside sub a.value = .ok found ∧
        ∃ inner ∈ found, e = inner.under a.step a.schemaStep := by
  rw [Application.find, descend.eq_def] at done
  split at done
  · cases done
    cases mem
  · obtain ⟨-, rfl⟩ := showing_eq_ok_iff.1 done
    rw [List.mem_singleton.1 mem]
    exact .inl ⟨rfl, rfl, rfl⟩
  · next sub same =>
      split at done
      · cases done
      · next inside opened =>
          split at done
          · cases done
          · next own named =>
              obtain rfl := keeps sub same own named
              obtain ⟨found, run, rfl⟩ := map_eq_ok_iff.1 done
              obtain ⟨inner, listed, rfl⟩ := List.mem_map.1 mem
              exact .inr ⟨sub, inside, found, same, opened, run, inner, listed, rfl⟩
  · cases done

end Facts

end RouteContract.Schema
