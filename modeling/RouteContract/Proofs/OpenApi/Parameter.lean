import RouteContract.Proofs.OpenApi.Document
import RouteContract.Proofs.Shape.BackReference

/-!
# Schemas of parameters

A parameter shows one property of a schema, while the references in it were written against the
whole schema. In the document they are written behind the place of the property, so that each leads
to what its pointer leads to inside the property. A compiled reference leads up, to an object around
it (`leadsUp_of_compile`), and the same way inside the property does not end at that object again
(`LeadsUp.follow?_relocate_ne`): no compiled reference in a parameter is live
(`parameter_references_miss`).
-/

set_option autoImplicit false

namespace RouteContract.OpenApi

open RouteContract Json Pointer Schema Shape

/-! ## Parameters in an operation -/

/-- The properties that an operation shows as parameters: the position among the parameters, the
schema that declares the property, and its name and own schema. Those of the path come first. -/
inductive ParameterOf (a : Action) : Nat → SchemaTable → String → SchemaTable → Prop where
  | path {params : Table Json} {i : Nat} {name : String} {piece : SchemaTable}
      (declared : declaredProperties a.params = .ok params)
      (listed : params[i]? = some (name, .obj piece)) : ParameterOf a i a.params name piece
  | query {params query : Table Json} {i : Nat} {name : String} {piece : SchemaTable}
      (before : declaredProperties a.params = .ok params)
      (declared : declaredProperties a.query = .ok query)
      (listed : query[i]? = some (name, .obj piece)) :
      ParameterOf a (params.length + i) a.query name piece

theorem getElem?_parameters {a : Action} {shown : List Json} {i : Nat} {schema piece : SchemaTable}
    {name : String} (made : parameters a = .ok shown) (p : ParameterOf a i schema name piece) :
    ∃ place isRequired, shown[i]? = some (parameter place isRequired name (.obj piece)) := by
  rw [parameters] at made
  split at made
  · cases made
  · next names _ =>
      split at made
      · cases made
      · next params declaredPath =>
          split at made
          · cases made
          · next query declaredQuery =>
              cases made
              cases p with
              | path declared listed =>
                  rw [declaredPath] at declared
                  cases declared
                  have bound := (List.getElem?_eq_some_iff.1 listed).1
                  refine ⟨"path", true, ?_⟩
                  rw [List.getElem?_append_left (by rwa [List.length_map]), List.getElem?_map,
                    listed]
                  rfl
              | query before declared listed =>
                  rw [declaredPath] at before
                  rw [declaredQuery] at declared
                  cases before
                  cases declared
                  refine ⟨"query", names.any fun n => n.text? == some name, ?_⟩
                  rw [List.getElem?_append_right (by rw [List.length_map]; omega),
                    List.length_map, Nat.add_sub_cancel_left, List.getElem?_map, listed]
                  rfl

/-- Where the schema of a parameter stands in an operation. -/
def parameterPlace (i : Nat) : List String := ["parameters", toString i, "schema"]

theorem follow?_parameter {a : Action} {op : Json} {i : Nat} {schema piece : SchemaTable}
    {name : String} (operates : operation a = .ok op) (p : ParameterOf a i schema name piece) :
    op.follow? (parameterPlace i) = some (.obj piece) := by
  obtain ⟨shown, made, rfl⟩ := map_eq_ok_iff.1 operates
  obtain ⟨place, isRequired, listed⟩ := getElem?_parameters made p
  have stands : (Json.obj ([("operationId", .str (textOr a.operationId a.name))] ++
      ((a.description.map fun d => ("description", .str d)).toList) ++
      [("parameters", .arr shown)] ++
      (if (filled? a.body "properties").isSome then
        [("requestBody", .obj [("required", .bool true), ("content", content a.body)])]
      else []) ++ [("responses", .obj (responses a))])).part? "parameters" =
        some (.arr shown) := by
    cases a.description with
    | none => rfl
    | some d => rfl
  rw [parameterPlace, follow?_cons, stands, Option.bind_some, follow?_cons, part?_arr, listed]
  rfl

/-! ## References to objects around them -/

/-- Every reference of a value leads up: the way to it goes through the object it leads to. -/
def LeadsUp (v : Json) : Prop :=
  ∀ (way : List String) (members : List (String × Json)) (text : String),
    v.follow? way = some (.obj members) → Table.get? members "$ref" = some (.str text) →
      ∃ target rest n, way = target ++ rest ∧ text = fragment target ∧
        v.follow? target = some (.obj n)

/-- **Inside a part, a reference to an object around it misses that object.** If the same way led
to a copy of the object there, then the copy would have the reference too, which leads up to the
object, and so the object would stand around its own copy. -/
theorem LeadsUp.follow?_relocate_ne {whole : Json} {front way target : List String}
    {piece members n : List (String × Json)} (place : List String) (up : LeadsUp whole)
    (inside : front ≠ []) (cut : whole.follow? front = some (.obj piece))
    (holder : (Json.obj piece).follow? way = some (.obj members))
    (stated : Table.get? members "$ref" = some (.str (fragment target)))
    (found : whole.follow? target = some (.obj n)) :
    (relocate place (.obj piece)).follow? target ≠ some (relocate place (.obj n)) := by
  intro again
  obtain ⟨copy, standing, same⟩ :=
    exists_follow?_of_relocate again (relocate_ne_str (v := .obj n) nofun)
  obtain rfl := relocate_injective place same
  have held : whole.follow? (front ++ way) = some (.obj members) := by
    rw [follow?_append, cut, Option.bind_some, holder]
  have copied : whole.follow? (front ++ target) = some (.obj n) := by
    rw [follow?_append, cut, Option.bind_some, standing]
  -- The reference stands in the object, at the end of `rest`, and so it stands in the copy.
  obtain ⟨_, rest, _, split, text, -⟩ := up _ _ _ held stated
  obtain rfl := fragment_injective text
  have heldAgain : whole.follow? (front ++ target ++ rest) = some (.obj members) := by
    rw [follow?_append, copied, Option.bind_some]
    rwa [split, follow?_append, found, Option.bind_some] at held
  -- There it leads up as well.
  obtain ⟨_, rest', _, split', text', -⟩ := up _ _ _ heldAgain stated
  obtain rfl := fragment_injective text'
  obtain ⟨tail, longer⟩ : target <+: front ++ target :=
    List.prefix_of_prefix_length_le ⟨rest', split'.symm⟩ ⟨rest, rfl⟩ (by simp)
  rw [← longer, follow?_append, found, Option.bind_some] at copied
  obtain rfl := eq_nil_of_follow?_self copied
  rw [List.append_nil] at longer
  exact inside (List.append_cancel_right (longer.symm.trans (List.nil_append target).symm))

/-! ## Compiled schemas -/

section Compiled

variable {g : Graph} {root : TypeId}

/-- The references that compilation makes lead up. -/
theorem leadsUp_of_compile {S : Json} (compiled : g.compile root [] [] = .ok S)
    (plain : ∀ u, g.Reaches root u → ∀ members, g.shape u ≠ .intersection members)
    (byCompiler : ∀ steps text, ¬ WrittenByHand g root steps text) : LeadsUp S := by
  intro way members text holder stated
  obtain ⟨steps, rfl, found⟩ := exists_at?_of_follow? holder
  have reference : ReferenceAt S steps text := by
    rw [ReferenceAt, at?_append, found, Option.bind_some, at?_cons, child?_obj_key, stated]
    rfl
  have explained : SiteExplained g root [] [] [] root S :=
    compile_induction (fun _ _ _ _ => siteExplained_of_expands plain) compiled
  obtain ⟨frames, moves, notes, t, site, again, rfl⟩ :=
    (explained [] [] [] rfl rfl .root steps text reference).resolve_right (byCompiler _ _)
  obtain ⟨k, f, entry, rfl, named⟩ := site.referenceAt_again compiled again
  obtain ⟨⟨_, above⟩, -, -, more, rfl⟩ := site.frame entry
  obtain ⟨s, part, standing⟩ := above.at?_compiled compiled
  obtain ⟨n, rfl, -⟩ := isSchema_of_compile part
  refine ⟨f.way.segments, (Way.steps (f.exit :: more)).map Step.segment, _, ?_, ?_,
    follow?_of_at? standing⟩
  · rw [Way.segments, ← List.map_append, ← Way.steps_append, ← List.append_cons]
  · exact Json.str.inj (Option.some.inj (reference.symm.trans named))

/-- A compiled object schema declares the properties that it was made of. -/
theorem declaredProperties_of_objectSchema {schema : SchemaTable} {additional : Json}
    {required : List String} {properties : Table Json}
    (same : Json.obj schema = objectSchema additional required properties) :
    declaredProperties schema = .ok properties := by
  cases Json.obj.inj same
  cases required with
  | nil =>
      cases properties with
      | nil => rfl
      | cons entry rest => rfl
  | cons first more =>
      cases properties with
      | nil => rfl
      | cons entry rest => rfl

/-- A property that a compiled schema declares stands in it under its name. -/
theorem follow?_property {schema piece : SchemaTable} {properties : List Property}
    {index : Option TypeId} {own name : String} {declared : Table Json} {i : Nat}
    (compiled : g.compile root [] [] = .ok (.obj schema))
    (object : g.shape root = .object properties index own)
    (declares : declaredProperties schema = .ok declared)
    (listed : declared[i]? = some (name, .obj piece)) :
    (Json.obj schema).follow? ["properties", name] = some (.obj piece) := by
  have expands := expands_of_compile compiled
  simp only [Expands, object, ExpandsObject, List.find?_nil] at expands
  obtain ⟨schemas, additional, -, -, same⟩ := expands
  rw [declaredProperties_of_objectSchema same] at declares
  cases declares
  have stands := child?_objectSchema_properties additional (Shape.requiredNames properties)
    (List.ne_nil_of_mem (List.mem_of_getElem? listed))
  rw [← same, child?_obj_key] at stands
  rw [follow?_cons, part?_obj, stands, Option.bind_some, follow?_cons, part?_obj,
    Table.get?_eq_some_of_mem (Table.nodup_keys_ofList _) (List.mem_of_getElem? listed),
    Option.bind_some, follow?_nil]

end Compiled

/-! ## Parameters in a document -/

/-- **References in advertised parameters are not live.** Take a document that was assembled without
replacements, the last route of a snapshot with some path and method about which the template says
nothing, and a parameter for a property of a schema that was compiled from an object type, with all
its references made by compilation. The document holds a copy of the property. A reference in it
was written with a pointer that leads from the top of the schema to some object. From the top of
the document the reference leads to what that pointer leads to inside the copy of the property, and
that is never the copy of the object. -/
theorem parameter_references_miss {σ ε : Type} {a a' : Assembler} {hooks : Hooks σ ε} {m m' : σ}
    {doc : Json} {s : Snapshot} {before after : List (String × RouteEntry)} {method : String}
    {entry : RouteEntry} {g : Graph} {root : TypeId} {properties : List Property}
    {index : Option TypeId} {own name : String} {i : Nat} {schema piece : SchemaTable}
    (fresh : a.kept = none) (lookOn : hooks.LookOn)
    (made : a.getDocument hooks (some s) m = (.ok (a', doc), m'))
    (declared : s.entries = before ++ (method, entry) :: after)
    (last : ∀ route ∈ after, ¬ (route.2.path = entry.path ∧ route.1 = method))
    (leavesOut : TemplateLeavesOut a.template entry.path method) (noSchema : method ≠ "schema")
    (compiled : g.compile root [] [] = .ok (.obj schema))
    (object : g.shape root = .object properties index own)
    (plain : ∀ u, g.Reaches root u → ∀ members, g.shape u ≠ .intersection members)
    (byCompiler : ∀ steps text, ¬ WrittenByHand g root steps text)
    (shown : ParameterOf entry.action i schema name piece) :
    let location := ["paths", entry.path, method] ++ parameterPlace i
    doc.follow? location = some (relocate location (.obj piece)) ∧
      ∀ (way : List String) (members : List (String × Json)) (text : String),
        (Json.obj piece).follow? way = some (.obj members) →
        Table.get? members "$ref" = some (.str text) →
          ∃ target n reference, text = fragment target ∧
            (Json.obj schema).resolve? text = some (.obj n) ∧
            doc.follow? (location ++ way ++ ["$ref"]) = some (.str reference) ∧
            doc.resolve? reference = (relocate location (.obj piece)).follow? target ∧
            doc.resolve? reference ≠ some (relocate location (.obj n)) := by
  intro location
  have written := document_of_getDocument fresh lookOn made
  have plainFront : "schema" ∉ ["parameters", toString i] := by
    rw [List.mem_cons, List.mem_singleton, not_or]
    exact ⟨by decide, Ne.symm (toString_ne_schema i)⟩
  have stands : doc.follow? location = some (relocate location (.obj piece)) :=
    follow?_document written declared last leavesOut noSchema plainFront fun op operates =>
      follow?_parameter operates shown
  refine ⟨stands, ?_⟩
  intro way members text holder stated
  have cut : (Json.obj schema).follow? ["properties", name] = some (.obj piece) := by
    cases shown with
    | path declares listed => exact follow?_property compiled object declares listed
    | query _ declares listed => exact follow?_property compiled object declares listed
  have up := leadsUp_of_compile compiled plain byCompiler
  have held : (Json.obj schema).follow? (["properties", name] ++ way) = some (.obj members) := by
    rw [follow?_append, cut, Option.bind_some, holder]
  obtain ⟨target, rest, n, split, rfl, found⟩ := up _ _ _ held stated
  have leads : doc.resolve? (fragment location ++ String.ofList (renderChars target)) =
      (relocate location (.obj piece)).follow? target := by
    rw [resolve?_fragment_append _ _ (readPointer?_renderChars target), follow?_append, stands,
      Option.bind_some]
  refine ⟨target, n, _, rfl, (resolve?_fragment _ _).trans found,
    reference_in_document stands holder stated (toList_fragment target), leads, ?_⟩
  rw [leads]
  exact up.follow?_relocate_ne location (List.cons_ne_nil _ _) cut holder stated found

/-- An object with a node, which has a node after it or none. -/
def nodeGraph : Graph :=
  ⟨#[⟨.object [⟨"node", 1, false, []⟩] none "Query", none⟩,
    ⟨.object [⟨"next", 1, true, []⟩] none "Node", none⟩]⟩

/-- The schema of a node, as a property of another one. -/
def queriedNode : SchemaTable :=
  [("type", .str "object"), ("additionalProperties", .bool false),
    ("properties", .obj [("next", .obj [("$ref", .str "#/properties/node")])])]

/-- The schema of an object with a node. -/
def nodeQuery : SchemaTable :=
  [("type", .str "object"), ("additionalProperties", .bool false),
    ("required", .arr [.str "node"]), ("properties", .obj [("node", .obj queriedNode)])]

/-- An action that takes a node as a parameter. -/
def queryAction : Action :=
  { name := "x", owner := none, operationId := none, description := none,
    returnDescription := none, statusCode := 200, validateInput := true, validateOutput := true,
    params := [], query := nodeQuery, body := [], returns := [("type", .str "null")], errors := [] }

/-- A snapshot with that action. -/
def querySnapshot : Snapshot := ⟨[("get", [⟨"/^/x/?$/i", "/x", queryAction⟩])]⟩

/-- The document of that snapshot. -/
def queryDocument : Json :=
  .obj [("openapi", .str "3.0.3"),
    ("info", .obj [("title", .str "REST API"), ("version", .str "1.0.0")]),
    ("paths", .obj [("/x", .obj [("get", .obj [("operationId", .str "x"),
      ("parameters", .arr [.obj [("name", .str "node"), ("in", .str "query"),
        ("required", .bool true), ("schema", .obj [("type", .str "object"),
          ("additionalProperties", .bool false), ("properties", .obj [("next", .obj [("$ref",
            .str "#/paths/~1x/get/parameters/0/schema/properties/node")])])])]]),
      ("responses", .obj [("200", .obj [("description", .str "Success response")])])])])])]

theorem queryDocument_references_miss :
    nodeGraph.compile 0 [] [] = .ok (.obj nodeQuery) ∧
      (Assembler.ofTemplate .null).getDocument (Hooks.none : Hooks PUnit PUnit)
        (some querySnapshot) ⟨⟩ =
        (.ok (⟨defaultTemplate, some queryDocument⟩, queryDocument), ⟨⟩) ∧
      ParameterOf queryAction 0 nodeQuery "node" queriedNode ∧
      ∃ n reference, (Json.obj nodeQuery).resolve? "#/properties/node" = some (.obj n) ∧
        queryDocument.follow? ["paths", "/x", "get", "parameters", "0", "schema", "properties",
          "next", "$ref"] = some (.str reference) ∧
        queryDocument.resolve? reference ≠
          some (relocate ["paths", "/x", "get", "parameters", "0", "schema"] (.obj n)) := by
  have compiled : nodeGraph.compile 0 [] [] = .ok (.obj nodeQuery) := by
    cbv
  have made : (Assembler.ofTemplate .null).getDocument (Hooks.none : Hooks PUnit PUnit)
      (some querySnapshot) ⟨⟩ =
        (.ok (⟨defaultTemplate, some queryDocument⟩, queryDocument), ⟨⟩) := by
    cbv
  have leavesOut : TemplateLeavesOut defaultTemplate "/x" "get" := by
    rintro members own ⟨⟩ ⟨⟩ item mem
    cases mem
  have shown : ParameterOf queryAction 0 nodeQuery "node" queriedNode :=
    @ParameterOf.query queryAction [] [("node", .obj queriedNode)] 0 _ _ rfl rfl rfl
  have plain (u : TypeId) (_ : nodeGraph.Reaches 0 u) (members : List TypeId) :
      nodeGraph.shape u ≠ .intersection members := by
    rcases u with _ | _ | u <;> simp [Graph.shape, Graph.node, nodeGraph]
  have byCompiler : ∀ steps text, ¬ WrittenByHand nodeGraph 0 steps text := by
    refine fun steps text => not_writtenByHand ?_ ?_
    · rintro (_ | _ | t) - properties index name ⟨⟩ p listed
      · rw [List.mem_singleton.1 listed]
      · rw [List.mem_singleton.1 listed]
    · rintro (_ | _ | t) - v (admits | ⟨admits, -⟩)
      all_goals cases admits
  have declared : querySnapshot.entries =
      [] ++ ("get", ⟨"/^/x/?$/i", "/x", queryAction⟩) :: [] := rfl
  obtain ⟨-, miss⟩ := parameter_references_miss rfl lookOn_none made declared
    (List.forall_mem_nil _) leavesOut (by decide) compiled rfl plain byCompiler shown
  obtain ⟨target, n, reference, -, denotes, holds, -, misses⟩ :=
    miss ["properties", "next"] _ "#/properties/node" rfl rfl
  exact ⟨compiled, made, shown, n, reference, denotes, holds, misses⟩

end RouteContract.OpenApi
