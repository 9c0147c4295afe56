import RouteContract.Proofs.OpenApi.Document

/-!
# Merging a snapshot into a template

The operations of a snapshot stand under their paths and methods, the last one where several share
both. A template is written over them, member by member: under a path and a key the document has
what the template says there, or else the generated operation, and nothing else (`Merges`). The
document is made exactly when every action of the snapshot has an operation, and the template that
the assembler holds stays as it was (`getDocument_merges`).
-/

set_option autoImplicit false

namespace RouteContract.OpenApi

open RouteContract Json Schema

/-! ## What is generated -/

/-- The last route with a path and a method. -/
def lastRoute? (routes : List (String × RouteEntry)) (path method : String) : Option RouteEntry :=
  (routes.reverse.find? fun route => route.2.path == path && route.1 == method).map Prod.snd

/-- The operation that is generated under a path and a method, as it is moved there. -/
def generated? (s : Snapshot) (path method : String) : Option Json :=
  (lastRoute? s.entries path method).bind fun entry =>
    (operation entry.action).toOption.map (rebaseMember none ["paths", path] method)

section Routes

variable {items result : Table (Table Json)} {routes : List (String × RouteEntry)}

theorem lastRoute?_eq_none_iff {path method : String} :
    lastRoute? routes path method = none ↔
      ∀ route ∈ routes, ¬ (route.2.path = path ∧ route.1 = method) := by
  simp [lastRoute?]

theorem lastRoute?_eq_some_iff {path method : String} {entry : RouteEntry} :
    lastRoute? routes path method = some entry ↔
      ∃ before after, routes = before ++ (method, entry) :: after ∧ entry.path = path ∧
        ∀ route ∈ after, ¬ (route.2.path = path ∧ route.1 = method) := by
  rw [lastRoute?, Option.map_eq_some_iff]
  constructor
  · rintro ⟨⟨name, other⟩, found, rfl⟩
    obtain ⟨both, later, earlier, split, passed⟩ := List.find?_eq_some_iff_append.1 found
    obtain ⟨rfl, rfl⟩ : other.path = path ∧ name = method := by simpa using both
    refine ⟨earlier.reverse, later.reverse, ?_, rfl, fun route listed => ?_⟩
    · rw [← List.reverse_reverse routes, split, List.reverse_append, List.reverse_cons,
        List.append_assoc, List.singleton_append]
    · simpa [imp_iff_not_or] using passed route (List.mem_reverse.1 listed)
  · rintro ⟨before, after, rfl, rfl, passed⟩
    refine ⟨(method, entry), List.find?_eq_some_iff_append.2
      ⟨by simp, after.reverse, before.reverse, by simp, fun route listed => ?_⟩, rfl⟩
    simpa [imp_iff_not_or] using passed route (List.mem_reverse.1 listed)

/-- The operations of routes are added exactly when all of them exist. -/
theorem addRoutes_eq_ok_iff (items : Table (Table Json)) :
    (∃ result, addRoutes items routes = .ok result) ↔
      ∀ route ∈ routes, ∃ op, operation route.2.action = .ok op := by
  induction routes generalizing items with
  | nil => exact iff_of_true ⟨items, rfl⟩ (List.forall_mem_nil _)
  | cons route rest ih =>
      obtain ⟨method, entry⟩ := route
      rw [List.forall_mem_cons, addRoutes]
      cases operation entry.action with
      | error f => simp
      | ok op =>
          rw [← ih (addOperation items entry.path method op)]
          exact (and_iff_right ⟨op, rfl⟩).symm

theorem mem_keys_addRoutes (added : addRoutes items routes = .ok result) {path : String} :
    path ∈ Table.keys result ↔
      path ∈ Table.keys items ∨ ∃ route ∈ routes, route.2.path = path := by
  induction routes generalizing items with
  | nil =>
      cases added
      simp
  | cons route rest ih =>
      rw [addRoutes] at added
      split at added
      · cases added
      · rw [ih added, addOperation, Table.mem_keys_put, List.exists_mem_cons_iff, or_comm (b := path ∈ _),
          or_assoc, eq_comm]

/-- Under a path and a method stands the operation of the last route with both. -/
theorem operationAt?_addRoutes_eq (added : addRoutes items routes = .ok result)
    (path method : String) :
    operationAt? result path method =
      match lastRoute? routes path method with
      | some entry => (operation entry.action).toOption
      | none => operationAt? items path method := by
  cases last : lastRoute? routes path method with
  | none => exact operationAt?_addRoutes_of_not_mem (lastRoute?_eq_none_iff.1 last) added
  | some entry =>
      obtain ⟨before, after, rfl, rfl, later⟩ := lastRoute?_eq_some_iff.1 last
      obtain ⟨op, operates, stands⟩ := operationAt?_addRoutes later added
      simp only [stands, operates]
      rfl

end Routes

/-! ## What a template says about paths -/

/-- What a template says about paths: nothing, or what it has under its key for them, an object of
objects. -/
inductive StatesPaths (members : Table Json) : Table Json → Prop where
  | nothing (absent : Table.get? members "paths" = none ∨ Table.get? members "paths" = some .null) :
      StatesPaths members []
  | paths {own : Table Json} (stated : Table.get? members "paths" = some (.obj own))
      (distinct : (Table.keys own).Nodup)
      (tables : ∀ entry ∈ own, ∃ item, entry.2 = .obj item ∧ (Table.keys item).Nodup) :
      StatesPaths members own

namespace StatesPaths

variable {members own : Table Json}

theorem distinct (states : StatesPaths members own) : (Table.keys own).Nodup := by
  cases states with
  | nothing absent => exact List.nodup_nil
  | paths stated distinct tables => exact distinct

theorem tables (states : StatesPaths members own) :
    ∀ entry ∈ own, ∃ item, entry.2 = .obj item ∧ (Table.keys item).Nodup := by
  cases states with
  | nothing absent => exact List.forall_mem_nil _
  | paths stated distinct tables => exact tables

theorem templatePaths_eq (states : StatesPaths members own) : templatePaths members = .ok own := by
  rw [templatePaths, filled?]
  cases states with
  | nothing absent => rcases absent with absent | absent <;> rw [absent] <;> rfl
  | paths stated distinct tables =>
      rw [stated]
      cases own with
      | nil => rfl
      | cons entry rest => rfl

end StatesPaths

section Overlay

variable {own : Table Json}

/-- What is left under a path where a template is written over what stands there. -/
def covered (below : Option Json) (item : Table Json) : Json :=
  .obj (Table.putAll ((below.bind Json.members?).getD []) item)

/-- An object of objects is written over paths, each of its members over what stands under it. -/
theorem exists_overlay (paths : Table Json) (distinct : (Table.keys own).Nodup)
    (tables : ∀ entry ∈ own, ∃ item, entry.2 = .obj item) :
    ∃ result, overlay paths own = .ok result ∧
      (∀ path, path ∈ Table.keys result ↔ path ∈ Table.keys paths ∨ path ∈ Table.keys own) ∧
      ∀ path, Table.get? result path =
        match Table.get? own path with
        | some (.obj item) => some (covered (Table.get? paths path) item)
        | _ => Table.get? paths path := by
  induction own generalizing paths with
  | nil => exact ⟨paths, rfl, fun path => by simp [Table.keys], fun path => rfl⟩
  | cons entry rest ih =>
      obtain ⟨name, value⟩ := entry
      obtain ⟨item, rfl⟩ : ∃ item, value = .obj item := tables _ (List.mem_cons_self ..)
      rw [Table.keys, List.map_cons, List.nodup_cons] at distinct
      obtain ⟨result, laid, listed, found⟩ :=
        ih (Table.put paths name (covered (Table.get? paths name) item)) distinct.2
          fun other mem => tables other (List.mem_cons_of_mem _ mem)
      refine ⟨result, laid, fun path => ?_, fun path => ?_⟩
      · rw [listed, Table.mem_keys_put, or_right_comm, or_comm]
        exact or_congr_right List.mem_cons.symm
      · rw [found]
        by_cases same : name = path
        · subst same
          -- Nothing is written over the path later.
          have once : Table.get? rest name = none := Table.get?_eq_none_iff.2 distinct.1
          rw [once, Table.get?_cons_self, Table.get?_put_self]
        · rw [Table.get?_cons_of_ne same, Table.get?_put_of_ne _ (Ne.symm same)]

end Overlay

/-! ## The document -/

/-- A document into which a template and a snapshot are merged. Its paths are those of both. Under a
path and a key it has what the template says there, or else what is generated, and nothing else; and
it has everything else that the template says. -/
structure Merges (members own : Table Json) (s : Snapshot) (doc : Json) (paths : Table Json) :
    Prop where
  under : doc.member? "paths" = some (.obj paths)
  others : ∀ key ≠ "paths", doc.member? key = Table.get? members key
  listed : ∀ path, path ∈ Table.keys paths ↔
    path ∈ Table.keys own ∨ ∃ route ∈ s.entries, route.2.path = path
  item : ∀ path v, Table.get? paths path = some v → ∃ item, v = .obj item ∧
    ∀ key, Table.get? item key =
      ((Table.get? own path).bind (·.member? key)).or (generated? s path key)

section Document

variable {s : Snapshot} {items : Table (Table Json)} {members own : Table Json}

/-- What is generated under a path, before the template is written over it. -/
theorem get?_placed_member (added : pathItems s = .ok items) (path key : String) :
    Table.get? (((Table.get? (placed items) path).bind members?).getD []) key =
      generated? s path key := by
  have generated : (operationAt? items path key).map (rebaseMember none ["paths", path] key) =
      generated? s path key := by
    rw [operationAt?_addRoutes_eq added, generated?]
    cases lastRoute? s.entries path key with
    | none => rfl
    | some entry => rfl
  rw [← generated, operationAt?, get?_placed]
  cases Table.get? items path with
  | none => rfl
  | some item =>
      rw [Option.map_some, rebase]
      exact get?_rebaseMembers none ["paths", path] item key

theorem keys_placed (items : Table (Table Json)) : Table.keys (placed items) = Table.keys items := by
  rw [Table.keys, placed, List.map_map]
  rfl

theorem merges_document (states : StatesPaths members own) (added : pathItems s = .ok items) :
    ∃ doc paths, document (.obj members) s = .ok doc ∧ Merges members own s doc paths := by
  obtain ⟨paths, laid, listed, found⟩ := exists_overlay (placed items) states.distinct
    fun entry mem => (states.tables entry mem).imp fun _ both => both.1
  refine ⟨.obj (Table.put members "paths" (.obj paths)), paths, ?_, ?_, ?_, ?_, ?_⟩
  · simp only [document, added, states.templatePaths_eq, laid]
    rfl
  · exact Table.get?_put_self ..
  · intro key other
    exact Table.get?_put_of_ne _ other _
  · intro path
    rw [listed, keys_placed, mem_keys_addRoutes added, or_comm]
    simp [Table.keys]
  · intro path v stands
    rw [found] at stands
    cases stated : Table.get? own path with
    | none =>
        rw [stated, get?_placed] at stands
        obtain ⟨item, under, rfl⟩ := Option.map_eq_some_iff.1 stands
        refine ⟨rebaseMembers none ["paths", path] item, by rw [rebase], fun key => ?_⟩
        rw [← get?_placed_member added, get?_placed, under, Option.map_some, rebase]
        rfl
    | some value =>
        obtain ⟨item, same, distinct⟩ := states.tables _ (Table.mem_of_get? stated)
        obtain rfl : value = .obj item := same
        rw [stated] at stands
        cases stands
        refine ⟨_, rfl, fun key => ?_⟩
        rw [Table.get?_putAll, Table.get?_reverse distinct, get?_placed_member added]
        rfl

/-- The document is made exactly when every action of the snapshot has an operation. -/
theorem document_eq_ok_iff (states : StatesPaths members own) :
    (∃ doc, document (.obj members) s = .ok doc) ↔
      ∀ route ∈ s.entries, ∃ op, operation route.2.action = .ok op := by
  rw [← addRoutes_eq_ok_iff []]
  constructor
  · rintro ⟨doc, made⟩
    rw [document] at made
    split at made
    · cases made
    · next items added => exact ⟨items, added⟩
  · rintro ⟨items, added⟩
    obtain ⟨doc, -, made, -⟩ := merges_document states added
    exact ⟨doc, made⟩

theorem merges_of_document {doc : Json} (states : StatesPaths members own)
    (made : document (.obj members) s = .ok doc) : ∃ paths, Merges members own s doc paths := by
  obtain ⟨items, added⟩ := (addRoutes_eq_ok_iff []).2
    ((document_eq_ok_iff states).1 ⟨doc, made⟩)
  obtain ⟨other, paths, same, merges⟩ := merges_document states added
  rw [made] at same
  cases same
  exact ⟨paths, merges⟩

end Document

/-! ## Assembling -/

section Assembling

variable {σ ε : Type} {s : Snapshot} {members own : Table Json}

/-- Without hooks, an assembler that keeps no document makes one. -/
theorem getDocument_none {a : Assembler} (fresh : a.kept = none) (m : σ) :
    a.getDocument (Hooks.none : Hooks σ ε) (some s) m =
      (((document a.template s).mapError .fault).map fun doc => (a.keep doc, doc), m) := by
  rw [Assembler.getDocument, fresh]
  cases written : document a.template s with
  | error f =>
      show (Assembler.ofResult ((document a.template s).mapError .fault) >>= _) m = _
      rw [written]
      rfl
  | ok doc =>
      show (Assembler.ofResult ((document a.template s).mapError .fault) >>= _) m = _
      rw [written]
      rfl

/-- **Merging is exact.** Take a template that says nothing about paths, or has an object of objects
for them, and hooks that replace nothing. A document is made exactly when every action of the
snapshot has an operation, and it is merged from the template and the snapshot. The assembler keeps
it together with the template as it was, and assembling again after a reset comes to the same
document. -/
theorem getDocument_merges {a : Assembler} {hooks : Hooks σ ε} (fresh : a.kept = none)
    (lookOn : hooks.LookOn) (isTable : a.template = .obj members)
    (states : StatesPaths members own) :
    (∀ m : σ, (∃ made, (a.getDocument (Hooks.none : Hooks σ ε) (some s) m).1 = .ok made) ↔
      ∀ route ∈ s.entries, ∃ op, operation route.2.action = .ok op) ∧
    ∀ a' doc (m m' : σ), a.getDocument hooks (some s) m = (.ok (a', doc), m') →
      (∃ paths, Merges members own s doc paths) ∧ a' = ⟨a.template, some doc⟩ ∧
        ∀ a'' doc' (m₁ m₂ : σ),
          a'.reset.getDocument hooks (some s) m₁ = (.ok (a'', doc'), m₂) → doc' = doc := by
  refine ⟨fun m => ?_, fun a' doc m m' made => ?_⟩
  · rw [← document_eq_ok_iff states, ← isTable, getDocument_none fresh]
    cases document a.template s with
    | error f => exact iff_of_false nofun nofun
    | ok doc => exact iff_of_true ⟨_, rfl⟩ ⟨_, rfl⟩
  · obtain ⟨written, rfl⟩ := getDocument_eq_ok fresh lookOn made
    obtain ⟨paths, merges⟩ := merges_of_document states (isTable ▸ written)
    have kept : a.keep doc = ⟨a.template, some doc⟩ := by
      have under := merges.under
      cases doc with
      | null | bool b | int i | float x | str s | arr items => cases under
      | obj whole => rfl
    refine ⟨⟨paths, merges⟩, kept, fun a'' doc' m₁ m₂ again => ?_⟩
    rw [kept] at again
    have same := document_of_getDocument rfl lookOn again
    rw [Assembler.reset, written] at same
    cases same
    rfl

end Assembling

/-! ## A template that says something beside what is generated -/

/-- A template with a path under which a method is generated as well. -/
def nodeTemplate : Table Json :=
  [("openapi", .str "3.0.3"),
    ("paths", .obj [("/a~b", .obj [("get", .obj [("$ref", .str "#/x-shared")])]), ("/t", .obj [])])]

theorem nodeTemplate_statesPaths : StatesPaths nodeTemplate
    [("/a~b", .obj [("get", .obj [("$ref", .str "#/x-shared")])]), ("/t", .obj [])] := by
  refine .paths rfl (by decide) (List.forall_mem_cons.2 ⟨⟨_, rfl, by decide⟩, ?_⟩)
  exact List.forall_mem_singleton.2 ⟨_, rfl, List.nodup_nil⟩

/-- Under the shared path stand the member of the template, its reference as it was, and the
generated operation, and nothing else. -/
theorem nodeTemplate_merges :
    ∃ a' doc item,
      ((⟨.obj nodeTemplate, none⟩ : Assembler).getDocument (Hooks.none : Hooks PUnit PUnit)
        (some nodeSnapshot) ⟨⟩).1 = .ok (a', doc) ∧
      a'.template = .obj nodeTemplate ∧ doc.member? "openapi" = some (.str "3.0.3") ∧
      (doc.member? "paths").bind (·.member? "/a~b") = some (.obj item) ∧
      Table.get? item "get" = some (.obj [("$ref", .str "#/x-shared")]) ∧
      (Table.get? item "post").isSome = true ∧ Table.get? item "put" = none := by
  have lookOn : (Hooks.none : Hooks PUnit PUnit).LookOn := lookOn_none
  obtain ⟨made, merged⟩ := getDocument_merges (a := ⟨.obj nodeTemplate, none⟩) (s := nodeSnapshot)
    rfl lookOn rfl nodeTemplate_statesPaths
  obtain ⟨⟨a', doc⟩, makes⟩ := (made ⟨⟩).2 (List.forall_mem_singleton.2 ⟨_, rfl⟩)
  obtain ⟨⟨paths, merges⟩, rfl, -⟩ := merged a' doc ⟨⟩ ⟨⟩ (Prod.ext makes rfl)
  have listed := (merges.listed "/a~b").2 (.inl (List.mem_cons_self ..))
  obtain ⟨v, stands⟩ := Option.isSome_iff_exists.1 ((Table.has_iff_mem_keys paths "/a~b").2 listed)
  obtain ⟨item, rfl, found⟩ := merges.item "/a~b" v stands
  refine ⟨_, doc, item, makes, rfl, merges.others "openapi" (by decide), ?_, ?_, ?_, ?_⟩
  · rw [merges.under]
    exact stands
  · rw [found]
    rfl
  · rw [found]
    rfl
  · rw [found]
    rfl

end RouteContract.OpenApi
