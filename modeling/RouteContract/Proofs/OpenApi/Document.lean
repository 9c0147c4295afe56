import Mathlib
import RouteContract.OpenApi.Assembler
import RouteContract.Proofs.Data.Result
import RouteContract.Proofs.Data.Table
import RouteContract.Proofs.Json.Numeral
import RouteContract.Proofs.OpenApi.Rebase

/-!
# Schemas in an assembled document

Under each path and method the document holds the operation of the last route with both, unless the
template says something there (`document_operation`). An operation has its schemas at fixed places
(`Advertised`), so each stands in the document as the moved schema, and its references are live
there (`advertised_references_live`).
-/

set_option autoImplicit false

namespace RouteContract.OpenApi

open RouteContract Json Pointer Schema

/-! ## Generated operations -/

/-- The operation under a path and a method. -/
def operationAt? (items : Table (Table Json)) (path method : String) : Option Json :=
  (Table.get? items path).bind (Table.get? · method)

theorem operationAt?_addOperation (items : Table (Table Json)) (path method : String) (op : Json)
    (p m : String) :
    operationAt? (addOperation items path method op) p m =
      if path = p ∧ method = m then some op else operationAt? items p m := by
  rw [operationAt?, operationAt?, addOperation, Table.get?_put]
  by_cases samePath : path = p
  · subst samePath
    rw [if_pos rfl, Option.bind_some, Table.get?_put]
    by_cases sameMethod : method = m
    · rw [if_pos sameMethod, if_pos ⟨rfl, sameMethod⟩]
    · rw [if_neg sameMethod, if_neg fun both => sameMethod both.2]
      cases Table.get? items path with
      | none => rfl
      | some item => rfl
  · rw [if_neg samePath, if_neg fun both => samePath both.1]

/-- Routes leave what stands under other paths and methods. -/
theorem operationAt?_addRoutes_of_not_mem {items result : Table (Table Json)}
    {routes : List (String × RouteEntry)} {p m : String}
    (others : ∀ route ∈ routes, ¬ (route.2.path = p ∧ route.1 = m))
    (added : addRoutes items routes = .ok result) :
    operationAt? result p m = operationAt? items p m := by
  induction routes generalizing items with
  | nil =>
      cases added
      rfl
  | cons route rest ih =>
      obtain ⟨method, entry⟩ := route
      rw [addRoutes] at added
      split at added
      · cases added
      · next op made =>
          have other := others (method, entry) (List.mem_cons_self ..)
          rw [ih (fun r mem => others r (List.mem_cons_of_mem _ mem)) added,
            operationAt?_addOperation, if_neg other]

/-- Under a path and a method stands the operation of the last route with both. -/
theorem operationAt?_addRoutes {items result : Table (Table Json)}
    {before after : List (String × RouteEntry)} {method : String} {entry : RouteEntry}
    (last : ∀ route ∈ after, ¬ (route.2.path = entry.path ∧ route.1 = method))
    (added : addRoutes items (before ++ (method, entry) :: after) = .ok result) :
    ∃ op, operation entry.action = .ok op ∧ operationAt? result entry.path method = some op := by
  induction before generalizing items with
  | nil =>
      rw [List.nil_append, addRoutes] at added
      split at added
      · cases added
      · next op made =>
          refine ⟨op, made, ?_⟩
          rw [operationAt?_addRoutes_of_not_mem last added, operationAt?_addOperation,
            if_pos ⟨rfl, rfl⟩]
  | cons route rest ih =>
      rw [List.cons_append, addRoutes] at added
      split at added
      · cases added
      · exact ih added

theorem get?_placed (items : Table (Table Json)) (path : String) :
    Table.get? (placed items) path =
      (Table.get? items path).map fun item => rebase none ["paths", path] (.obj item) :=
  Table.get?_map (fun name item => rebase none ["paths", name] (.obj item)) items path

/-! ## The template -/

/-- A template says nothing about a method under a path. -/
def LeavesOut (own : List (String × Json)) (path method : String) : Prop :=
  ∀ item, (path, Json.obj item) ∈ own → method ∉ Table.keys item

/-- A table of path items has an operation under a path and a method. -/
def HasOperation (paths : Table Json) (path method : String) (op : Json) : Prop :=
  ∃ item, Table.get? paths path = some (.obj item) ∧ Table.get? item method = some op

/-- A template that says nothing about a method under a path. -/
def TemplateLeavesOut (template : Json) (path method : String) : Prop :=
  ∀ members own, template = .obj members → templatePaths members = .ok own →
    LeavesOut own path method

/-- What is generated stays where the template says nothing. -/
theorem overlay_keeps {paths result : Table Json} {own : List (String × Json)}
    {path method : String} {op : Json} (leavesOut : LeavesOut own path method)
    (stands : HasOperation paths path method op) (laid : overlay paths own = .ok result) :
    HasOperation result path method op := by
  induction own generalizing paths with
  | nil =>
      cases laid
      exact stands
  | cons entry rest ih =>
      obtain ⟨name, item⟩ := entry
      have later : LeavesOut rest path method := fun item mem =>
        leavesOut item (List.mem_cons_of_mem _ mem)
      cases item with
      | null | bool b | int i | float x | str s | arr items => cases laid
      | obj item =>
          rw [overlay] at laid
          refine ih later ?_ laid
          obtain ⟨generated, found, stated⟩ := stands
          by_cases same : name = path
          · subst same
            have absent : Table.get? item.reverse method = none := by
              rw [Table.get?_eq_none_iff, Table.keys_reverse, List.mem_reverse]
              exact leavesOut item (List.mem_cons_self ..)
            refine ⟨Table.putAll generated item, ?_, ?_⟩
            · rw [Table.get?_put_self, found]
              rfl
            · rw [Table.get?_putAll, absent, Option.none_or, stated]
          · exact ⟨generated, by rw [Table.get?_put_of_ne _ (Ne.symm same), found], stated⟩

/-- **Under a path and a method the document holds the operation of the last route with both**,
moved there, unless the template says something there. -/
theorem document_member {template doc : Json} {s : Snapshot}
    {before after : List (String × RouteEntry)} {method : String} {entry : RouteEntry}
    (made : document template s = .ok doc)
    (declared : s.entries = before ++ (method, entry) :: after)
    (last : ∀ route ∈ after, ¬ (route.2.path = entry.path ∧ route.1 = method))
    (leavesOut : TemplateLeavesOut template entry.path method) :
    ∃ op, operation entry.action = .ok op ∧
      doc.follow? ["paths", entry.path, method] =
        some (rebaseMember none ["paths", entry.path] method op) := by
  rw [document] at made
  split at made
  · cases made
  · next items added =>
      cases template with
      | null | bool b | int i | float x | str s | arr items => cases made
      | obj members =>
          simp only at made
          split at made
          · cases made
          · next own stated =>
              obtain ⟨paths, laid, rfl⟩ := map_eq_ok_iff.1 made
              rw [pathItems, declared] at added
              obtain ⟨op, operates, stands⟩ := operationAt?_addRoutes last added
              obtain ⟨item, found, under⟩ := Option.bind_eq_some_iff.1 stands
              have generated : HasOperation (placed items) entry.path method
                  (rebaseMember none ["paths", entry.path] method op) := by
                refine ⟨rebaseMembers none ["paths", entry.path] item, ?_, ?_⟩
                · rw [get?_placed, found, Option.map_some, rebase]
                · rw [get?_rebaseMembers, under, Option.map_some]
              obtain ⟨item, found, stands⟩ :=
                overlay_keeps (leavesOut members own rfl stated) generated laid
              refine ⟨op, operates, ?_⟩
              rw [follow?_cons, part?_obj, Table.get?_put_self, Option.bind_some, follow?_cons,
                part?_obj, found, Option.bind_some, follow?_cons, part?_obj, stands,
                Option.bind_some, follow?_nil]

/-- No schema begins above the operation, unless the method has the name of the key for one. -/
theorem document_operation {template doc : Json} {s : Snapshot}
    {before after : List (String × RouteEntry)} {method : String} {entry : RouteEntry}
    (made : document template s = .ok doc)
    (declared : s.entries = before ++ (method, entry) :: after)
    (last : ∀ route ∈ after, ¬ (route.2.path = entry.path ∧ route.1 = method))
    (leavesOut : TemplateLeavesOut template entry.path method)
    (noSchema : method ≠ "schema") :
    ∃ op, operation entry.action = .ok op ∧
      doc.follow? ["paths", entry.path, method] =
        some (rebase none ["paths", entry.path, method] op) := by
  obtain ⟨op, operates, stands⟩ := document_member made declared last leavesOut
  refine ⟨op, operates, ?_⟩
  rw [stands, rebaseMember_of_no_root, SchemaRoot.enter, if_neg noSchema]
  rfl

/-! ## Schemas in an operation -/

/-- Where the schema of a content stands. -/
def schemaOfContent : List String := ["content", "application/json", "schema"]

/-- The schemas of bodies and responses that an operation shows, and where they stand in it. -/
inductive Advertised (a : Action) : List String → SchemaTable → Prop where
  | body (filled : (filled? a.body "properties").isSome = true) :
      Advertised a ("requestBody" :: schemaOfContent) a.body
  /-- An error under the status of success takes its place. -/
  | success (alone : ∀ e ∈ a.errors, e.code ≠ successStatus a)
      (hasContent : isContentless a.returns = false) :
      Advertised a ("responses" :: successStatus a :: schemaOfContent) a.returns
  /-- Of several errors with one code the last one counts. -/
  | error {e : ErrorContract} {before after : List ErrorContract}
      (declared : a.errors = before ++ e :: after) (last : ∀ other ∈ after, other.code ≠ e.code)
      (hasContent : isContentless e.payload = false) :
      Advertised a ("responses" :: e.code :: schemaOfContent) e.payload

theorem follow?_content {members : List (String × Json)} {schema : SchemaTable}
    (found : Table.get? members "content" = some (content schema)) :
    (Json.obj members).follow? schemaOfContent = some (.obj schema) := by
  rw [schemaOfContent, follow?_cons, part?_obj, found]
  rfl

theorem follow?_response {description : String} {schema : SchemaTable}
    (hasContent : isContentless schema = false) :
    (response description schema).follow? schemaOfContent = some (.obj schema) := by
  rw [response, hasContent]
  exact follow?_content rfl

/-- The responses are written one after the other, errors over what stands under their codes. -/
theorem responses_eq_putAll (a : Action) :
    responses a =
      Table.putAll
        [(successStatus a, response (textOr a.returnDescription "Success response") a.returns)]
        (a.errors.map fun e =>
          (e.code, response (textOr e.description (e.code ++ " Error")) e.payload)) := by
  rw [responses, Table.putAll, List.foldl_map]

theorem get?_responses_success {a : Action} (alone : ∀ e ∈ a.errors, e.code ≠ successStatus a) :
    Table.get? (responses a) (successStatus a) =
      some (response (textOr a.returnDescription "Success response") a.returns) := by
  have absent : Table.get? (a.errors.map fun e =>
      (e.code, response (textOr e.description (e.code ++ " Error")) e.payload)).reverse
        (successStatus a) = none := by
    rw [Table.get?_eq_none_iff, Table.keys_reverse, List.mem_reverse, Table.keys, List.map_map]
    intro member
    obtain ⟨e, listed, same⟩ := List.mem_map.1 member
    exact alone e listed same
  rw [responses_eq_putAll, Table.get?_putAll, absent, Option.none_or, Table.get?, if_pos rfl]

theorem get?_responses_error {a : Action} {e : ErrorContract} {before after : List ErrorContract}
    (declared : a.errors = before ++ e :: after) (last : ∀ other ∈ after, other.code ≠ e.code) :
    Table.get? (responses a) e.code =
      some (response (textOr e.description (e.code ++ " Error")) e.payload) := by
  have absent : Table.get? (after.map fun e =>
      (e.code, response (textOr e.description (e.code ++ " Error")) e.payload)).reverse
        e.code = none := by
    rw [Table.get?_eq_none_iff, Table.keys_reverse, List.mem_reverse, Table.keys, List.map_map]
    intro member
    obtain ⟨other, listed, same⟩ := List.mem_map.1 member
    exact last other listed same
  rw [responses_eq_putAll, Table.get?_putAll, declared, List.map_append, List.map_cons,
    List.reverse_append, List.reverse_cons, List.append_assoc, Table.get?_append, absent,
    Option.none_or, List.singleton_append, Table.get?, if_pos rfl, Option.some_or]

/-- The members of an operation that have schemas. -/
theorem part?_operation {a : Action} {op : Json} (operates : operation a = .ok op) :
    op.part? "responses" = some (.obj (responses a)) ∧
      ((filled? a.body "properties").isSome = true →
        op.part? "requestBody" =
          some (.obj [("required", .bool true), ("content", content a.body)])) := by
  obtain ⟨parameters, -, rfl⟩ := map_eq_ok_iff.1 operates
  cases a.description with
  | none =>
      cases filled : (filled? a.body "properties").isSome with
      | false => exact ⟨rfl, nofun⟩
      | true => exact ⟨rfl, fun _ => rfl⟩
  | some d =>
      cases filled : (filled? a.body "properties").isSome with
      | false => exact ⟨rfl, nofun⟩
      | true => exact ⟨rfl, fun _ => rfl⟩

theorem follow?_advertised {a : Action} {op : Json} {place : List String} {schema : SchemaTable}
    (operates : operation a = .ok op) (advertised : Advertised a place schema) :
    op.follow? place = some (.obj schema) := by
  obtain ⟨responses, body⟩ := part?_operation operates
  cases advertised with
  | body filled =>
      rw [follow?_cons, body filled, Option.bind_some]
      exact follow?_content rfl
  | success alone hasContent =>
      rw [follow?_cons, responses, Option.bind_some, follow?_cons, part?_obj,
        get?_responses_success alone, Option.bind_some, follow?_response hasContent]
  | error declared last hasContent =>
      rw [follow?_cons, responses, Option.bind_some, follow?_cons, part?_obj,
        get?_responses_error declared last, Option.bind_some, follow?_response hasContent]

/-- A status is a decimal numeral. -/
theorem successStatus_ne_schema (a : Action) : successStatus a ≠ "schema" := by
  intro same
  have chars : Number.integerText a.statusCode = "schema".toList := by
    rw [successStatus, display, displayChars] at same
    rw [← same, String.toList_ofList]
  obtain ⟨c, more, text, digit, -⟩ := Reader.exists_integerText a.statusCode
  have first := congrArg List.head? (text.symm.trans chars)
  rw [Reader.signText] at first
  split at first
  · exact absurd (Option.some.inj first) (by decide)
  · obtain rfl : c = 's' := Option.some.inj first
    exact absurd digit (by decide)

/-- A schema stands below the only key for one on the way to it. -/
theorem Advertised.place_eq {a : Action} {place : List String} {schema : SchemaTable}
    (advertised : Advertised a place schema) (codes : ∀ e ∈ a.errors, e.code ≠ "schema") :
    ∃ front, place = front ++ ["schema"] ∧ "schema" ∉ front := by
  cases advertised with
  | body filled => exact ⟨["requestBody", "content", "application/json"], rfl, by decide⟩
  | success alone hasContent =>
      refine ⟨["responses", successStatus a, "content", "application/json"], rfl, ?_⟩
      simp [Ne.symm (successStatus_ne_schema a)]
  | @error e before after declared last hasContent =>
      refine ⟨["responses", e.code, "content", "application/json"], rfl, ?_⟩
      have listed : e ∈ a.errors := by simp [declared]
      simp [Ne.symm (codes e listed)]

/-! ## Assembling -/

section Assembling

variable {σ ε : Type}

/-- Hooks that replace nothing. They may remember something, and refuse. -/
structure Hooks.LookOn (hooks : Hooks σ ε) : Prop where
  before : ∀ hook ∈ hooks.before, ∀ s m s', (hook s m).1 = .ok s' → s' = s
  after : ∀ hook ∈ hooks.after, ∀ s d m d', (hook s d m).1 = .ok d' → d' = d

theorem lookOn_none : (Hooks.none : Hooks σ ε).LookOn :=
  ⟨List.forall_mem_nil _, List.forall_mem_nil _⟩

/-- Hooks that replace nothing leave what they are run on, unless one of them refuses. -/
theorem runHooks_of_lookOn {α : Type} {hooks : List (α → HookResult σ ε α)} {x y : α} {m m' : σ}
    (lookOn : ∀ hook ∈ hooks, ∀ x m y, (hook x m).1 = .ok y → y = x)
    (run : Assembler.runHooks hooks x m = (.ok y, m')) : y = x := by
  induction hooks generalizing x m with
  | nil =>
      cases run
      rfl
  | cons hook rest ih =>
      rw [Assembler.runHooks, List.foldlM_cons, run_bind] at run
      rcases called : hook x m with ⟨result, t⟩
      simp only [called] at run
      cases result with
      | error e => cases run
      | ok z =>
          have kept := lookOn hook (List.mem_cons_self ..) x m z (by rw [called])
          subst kept
          exact ih (fun h mem => lookOn h (List.mem_cons_of_mem _ mem)) run

/-- Without replacements the assembled document is the one of the template and the snapshot, and it
is kept. -/
theorem getDocument_eq_ok {a a' : Assembler} {hooks : Hooks σ ε} {s : Snapshot} {m m' : σ}
    {doc : Json} (fresh : a.kept = none) (lookOn : hooks.LookOn)
    (made : a.getDocument hooks (some s) m = (.ok (a', doc), m')) :
    document a.template s = .ok doc ∧ a' = a.keep doc := by
  rw [Assembler.getDocument, fresh] at made
  change (Assembler.runHooks hooks.before s >>= _) m = _ at made
  rw [run_bind] at made
  split at made
  · next s₁ m₁ before =>
      have same := runHooks_of_lookOn lookOn.before before
      subst same
      rw [run_bind, Assembler.ofResult] at made
      cases written : document a.template s₁ with
      | error f =>
          rw [written] at made
          cases made
      | ok d =>
          rw [written] at made
          change (Assembler.runHooks (hooks.after.map (· s₁)) d >>= _) m₁ = _ at made
          rw [run_bind] at made
          split at made
          · next d₁ m₂ after =>
              cases made
              refine ⟨congrArg Except.ok (runHooks_of_lookOn ?_ after).symm, rfl⟩
              intro hook mem
              obtain ⟨hook, listed, rfl⟩ := List.mem_map.1 mem
              exact lookOn.after hook listed s₁
          · cases made
  · cases made

theorem document_of_getDocument {a a' : Assembler} {hooks : Hooks σ ε} {s : Snapshot} {m m' : σ}
    {doc : Json} (fresh : a.kept = none) (lookOn : hooks.LookOn)
    (made : a.getDocument hooks (some s) m = (.ok (a', doc), m')) :
    document a.template s = .ok doc :=
  (getDocument_eq_ok fresh lookOn made).1

end Assembling

/-! ## Advertised schemas -/

section Advertising

variable {s : Snapshot} {before after : List (String × RouteEntry)} {method : String}
  {entry : RouteEntry} {place : List String} {schema : SchemaTable}

/-- A schema of an operation stands in the document as it is moved there. -/
theorem follow?_document {template doc : Json} {front : List String}
    (made : document template s = .ok doc)
    (declared : s.entries = before ++ (method, entry) :: after)
    (last : ∀ route ∈ after, ¬ (route.2.path = entry.path ∧ route.1 = method))
    (leavesOut : TemplateLeavesOut template entry.path method) (noSchema : method ≠ "schema")
    (plain : "schema" ∉ front)
    (shown : ∀ op, operation entry.action = .ok op →
      op.follow? (front ++ ["schema"]) = some (.obj schema)) :
    doc.follow? (["paths", entry.path, method] ++ (front ++ ["schema"])) =
      some (relocate (["paths", entry.path, method] ++ (front ++ ["schema"])) (.obj schema)) := by
  obtain ⟨op, operates, stands⟩ := document_operation made declared last leavesOut noSchema
  rw [follow?_append, stands, Option.bind_some]
  exact follow?_rebase_schema _ plain (shown op operates) nofun

/-- **A reference of a schema stands in the document**, written behind the place of the schema. -/
theorem reference_in_document {doc : Json} {location way : List String}
    {members : List (String × Json)} {text : String} {pointer : List Char}
    (stands : doc.follow? location = some (relocate location (.obj schema)))
    (holder : (Json.obj schema).follow? way = some (.obj members))
    (stated : Table.get? members "$ref" = some (.str text))
    (isLocal : text.toList = '#' :: pointer) :
    doc.follow? (location ++ way ++ ["$ref"]) =
      some (.str (fragment location ++ String.ofList pointer)) := by
  rw [List.append_assoc, follow?_append, stands, Option.bind_some, follow?_append,
    follow?_relocate location holder nofun, Option.bind_some, follow?_cons,
    part?_relocate_reference location stated isLocal, Option.bind_some, follow?_nil]

/-- **References in advertised bodies and responses stay live.** Take a document that was assembled
without replacements, the last route of a snapshot with some path and method about which the
template says nothing, and a schema of its body or of a response. The document holds a copy of that
schema, equal to it but for the texts of local references. Wherever the schema has a reference that
leads from its top to an object, the copy has one that leads from the top of the document to the
copy of that object. -/
theorem advertised_references_live {σ ε : Type} {a a' : Assembler} {hooks : Hooks σ ε} {m m' : σ}
    {doc : Json} (fresh : a.kept = none) (lookOn : hooks.LookOn)
    (made : a.getDocument hooks (some s) m = (.ok (a', doc), m'))
    (declared : s.entries = before ++ (method, entry) :: after)
    (last : ∀ route ∈ after, ¬ (route.2.path = entry.path ∧ route.1 = method))
    (leavesOut : TemplateLeavesOut a.template entry.path method) (noSchema : method ≠ "schema")
    (codes : ∀ e ∈ entry.action.errors, e.code ≠ "schema")
    (advertised : Advertised entry.action place schema) :
    let location := ["paths", entry.path, method] ++ place
    doc.follow? location = some (relocate location (.obj schema)) ∧
      blankReferences (relocate location (.obj schema)) = blankReferences (.obj schema) ∧
      ∀ (way target : List String) (members n : List (String × Json)) (text : String)
        (pointer : List Char),
        (Json.obj schema).follow? way = some (.obj members) →
        Table.get? members "$ref" = some (.str text) → text.toList = '#' :: pointer →
        readPointer? pointer = some target → (Json.obj schema).follow? target = some (.obj n) →
          ∃ reference, doc.follow? (location ++ way ++ ["$ref"]) = some (.str reference) ∧
            doc.resolve? reference = some (relocate location (.obj n)) := by
  intro location
  have written := document_of_getDocument fresh lookOn made
  obtain ⟨front, same, plain⟩ := advertised.place_eq codes
  have stands : doc.follow? location = some (relocate location (.obj schema)) := by
    subst same
    exact follow?_document written declared last leavesOut noSchema plain fun op operates =>
      follow?_advertised operates advertised
  refine ⟨stands, blankReferences_relocate _ _, ?_⟩
  intro way target members n text pointer holder stated isLocal read found
  exact ⟨_, reference_in_document stands holder stated isLocal,
    resolve?_relocate stands read found nofun⟩

/-- A node with a reference to its own schema, under a property with the name of the key for
schemas. -/
def nodeSchema : SchemaTable :=
  [("type", .str "object"),
    ("properties", .obj [("schema", .obj [("type", .str "object"),
      ("properties", .obj [("next", .obj [("$ref", .str "#/properties/schema")])])])])]

/-- An action that takes a node. -/
def nodeAction : Action :=
  { name := "nodes", owner := none, operationId := none, description := none,
    returnDescription := none, statusCode := 204, validateInput := true, validateOutput := true,
    params := [], query := [], body := nodeSchema, returns := [("type", .str "null")]
    errors := [] }

/-- A snapshot with that action under a path that pointers escape. -/
def nodeSnapshot : Snapshot :=
  ⟨[("post", [⟨"/^/a~b/?$/i", "/a~b", nodeAction⟩])]⟩

/-- The document of that snapshot. -/
def nodeDocument : Json :=
  .obj [("openapi", .str "3.0.3"),
    ("info", .obj [("title", .str "REST API"), ("version", .str "1.0.0")]),
    ("paths", .obj [("/a~b", .obj [("post", .obj [("operationId", .str "nodes"),
      ("parameters", .arr []),
      ("requestBody", .obj [("required", .bool true),
        ("content", .obj [("application/json", .obj [("schema", .obj [("type", .str "object"),
          ("properties", .obj [("schema", .obj [("type", .str "object"),
            ("properties", .obj [("next", .obj [("$ref",
              .str ("#/paths/~1a~0b/post/requestBody/content/application~1json/schema" ++
                "/properties/schema"))])])])])])])])]),
      ("responses", .obj [("204", .obj [("description", .str "Success response")])])])])])]

theorem nodeDocument_references_live :
    (Assembler.ofTemplate .null).getDocument (Hooks.none : Hooks PUnit PUnit)
        (some nodeSnapshot) ⟨⟩ =
        (.ok (⟨defaultTemplate, some nodeDocument⟩, nodeDocument), ⟨⟩) ∧
      TemplateLeavesOut defaultTemplate "/a~b" "post" ∧
      Advertised nodeAction ("requestBody" :: schemaOfContent) nodeSchema ∧
      ∃ reference,
        nodeDocument.follow? ["paths", "/a~b", "post", "requestBody", "content",
          "application/json", "schema", "properties", "schema", "properties", "next", "$ref"] =
            some (.str reference) ∧
          nodeDocument.resolve? reference =
            nodeDocument.follow? ["paths", "/a~b", "post", "requestBody", "content",
              "application/json", "schema", "properties", "schema"] := by
  have made : (Assembler.ofTemplate .null).getDocument (Hooks.none : Hooks PUnit PUnit)
      (some nodeSnapshot) ⟨⟩ =
        (.ok (⟨defaultTemplate, some nodeDocument⟩, nodeDocument), ⟨⟩) := by
    cbv
  have leavesOut : TemplateLeavesOut defaultTemplate "/a~b" "post" := by
    rintro members own ⟨⟩ ⟨⟩ item mem
    cases mem
  have advertised : Advertised nodeAction ("requestBody" :: schemaOfContent) nodeSchema :=
    .body (by decide)
  have declared : nodeSnapshot.entries =
      [] ++ ("post", ⟨"/^/a~b/?$/i", "/a~b", nodeAction⟩) :: [] := rfl
  obtain ⟨-, -, live⟩ := advertised_references_live rfl lookOn_none made declared
    (List.forall_mem_nil _) leavesOut (by decide) (List.forall_mem_nil _) advertised
  obtain ⟨reference, holds, leads⟩ := live ["properties", "schema", "properties", "next"]
    ["properties", "schema"] _ _ _ "/properties/schema".toList rfl rfl (by decide) (by decide) rfl
  refine ⟨made, leavesOut, advertised, reference, holds, leads.trans ?_⟩
  cbv

end Advertising

end RouteContract.OpenApi
