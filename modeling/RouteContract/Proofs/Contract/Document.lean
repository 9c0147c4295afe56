import RouteContract.Contract.Document
import RouteContract.Proofs.Data.Table
import RouteContract.Proofs.Json.RoundTrip

/-!
# Contracts read back from their documents

The document of an action, of a route and of a snapshot is read back as what it was made from
(`Action.read_fields`, `RouteEntry.read_fields`, `Snapshot.read_fields`). A document holds null for
a number that is not finite, so schemas have to be free of those; then it holds the fields as they
are (`Action.toJson_eq_fields`), and a text can spell it (`Action.isPlain_fields`). What it holds of
any action is the action with these nulls in its schemas (`Action.fields_finite`).

A document of buckets of routes is read as the buckets written one over the other, each under its
method in lower case (`Snapshot.read_of_holdBuckets`).
-/

set_option autoImplicit false

namespace RouteContract

/-! ## Finite values -/

namespace Json

mutual
/-- Whether all numbers in a value are finite. -/
def isFinite : Json → Bool
  | .float x => x.isFinite
  | .arr items => areFinite items
  | .obj members => membersAreFinite members
  | .null => true
  | .bool _ => true
  | .int _ => true
  | .str _ => true

/-- Whether all numbers in items are finite. -/
def areFinite : List Json → Bool
  | [] => true
  | item :: rest => item.isFinite && areFinite rest

/-- Whether all numbers in the values of members are finite. -/
def membersAreFinite : List (String × Json) → Bool
  | [] => true
  | (_, v) :: rest => v.isFinite && membersAreFinite rest
end

end Json

mutual
/-- A document holds a finite value as it is. -/
theorem finiteJson_eq_self : ∀ {v : Json}, v.isFinite = true → finiteJson v = v
  | .float (.finite _ _), _ => rfl
  | .arr items, finite => by
      rw [finiteJson, finiteItems_eq_self finite]
  | .obj members, finite => by
      rw [finiteJson, finiteMembers_eq_self finite]
  | .null, _ => rfl
  | .bool _, _ => rfl
  | .int _, _ => rfl
  | .str _, _ => rfl

theorem finiteItems_eq_self : ∀ {items : List Json},
    Json.areFinite items = true → finiteItems items = items
  | [], _ => rfl
  | item :: rest, finite => by
      rw [Json.areFinite, Bool.and_eq_true] at finite
      rw [finiteItems, finiteJson_eq_self finite.1, finiteItems_eq_self finite.2]

theorem finiteMembers_eq_self : ∀ {members : List (String × Json)},
    Json.membersAreFinite members = true → finiteMembers members = members
  | [], _ => rfl
  | (name, v) :: rest, finite => by
      rw [Json.membersAreFinite, Bool.and_eq_true] at finite
      rw [finiteMembers, finiteJson_eq_self finite.1, finiteMembers_eq_self finite.2]
end

mutual
/-- A document holds no number that is not finite. -/
theorem isFinite_finiteJson : ∀ v : Json, (finiteJson v).isFinite = true
  | .float (.finite _ _) => rfl
  | .float (.infinite _) => rfl
  | .float .undefined => rfl
  | .arr items => areFinite_finiteItems items
  | .obj members => membersAreFinite_finiteMembers members
  | .null => rfl
  | .bool _ => rfl
  | .int _ => rfl
  | .str _ => rfl

theorem areFinite_finiteItems : ∀ items : List Json, Json.areFinite (finiteItems items) = true
  | [] => rfl
  | item :: rest => by
      rw [finiteItems, Json.areFinite, isFinite_finiteJson item, areFinite_finiteItems rest]
      rfl

theorem membersAreFinite_finiteMembers :
    ∀ members : List (String × Json), Json.membersAreFinite (finiteMembers members) = true
  | [] => rfl
  | (name, v) :: rest => by
      rw [finiteMembers, Json.membersAreFinite, isFinite_finiteJson v,
        membersAreFinite_finiteMembers rest]
      rfl
end

theorem keys_finiteMembers (members : Table Json) :
    Table.keys (finiteMembers members) = Table.keys members := by
  induction members with
  | nil => rfl
  | cons member rest ih => exact congrArg (member.1 :: ·) ih

mutual
/-- A document leaves names as they are. -/
theorem hasDistinctNames_finiteJson :
    ∀ v : Json, (finiteJson v).hasDistinctNames = v.hasDistinctNames
  | .float (.finite _ _) => rfl
  | .float (.infinite _) => rfl
  | .float .undefined => rfl
  | .arr items => haveDistinctNames_finiteItems items
  | .obj members => by
      rw [finiteJson, Json.hasDistinctNames, Json.hasDistinctNames, keys_finiteMembers,
        membersHaveDistinctNames_finiteMembers members]
  | .null => rfl
  | .bool _ => rfl
  | .int _ => rfl
  | .str _ => rfl

theorem haveDistinctNames_finiteItems :
    ∀ items : List Json, Json.haveDistinctNames (finiteItems items) = Json.haveDistinctNames items
  | [] => rfl
  | item :: rest => by
      rw [finiteItems, Json.haveDistinctNames, Json.haveDistinctNames,
        hasDistinctNames_finiteJson item, haveDistinctNames_finiteItems rest]

theorem membersHaveDistinctNames_finiteMembers :
    ∀ members : List (String × Json),
      Json.membersHaveDistinctNames (finiteMembers members) = Json.membersHaveDistinctNames members
  | [] => rfl
  | (name, v) :: rest => by
      rw [finiteMembers, Json.membersHaveDistinctNames, Json.membersHaveDistinctNames,
        hasDistinctNames_finiteJson v, membersHaveDistinctNames_finiteMembers rest]
end

/-! ## Plain values -/

namespace Json

/-- A value that a document holds as it is and that a text can spell: its numbers are finite, and
the names of every object in it are distinct. -/
structure IsPlain (v : Json) : Prop where
  finite : v.isFinite = true
  distinct : v.hasDistinctNames = true

instance (v : Json) : Decidable v.IsPlain :=
  decidable_of_iff (v.isFinite = true ∧ v.hasDistinctNames = true)
    ⟨fun ⟨a, b⟩ => ⟨a, b⟩, fun ⟨a, b⟩ => ⟨a, b⟩⟩

theorem isPlain_arr {items : List Json} (plain : ∀ item ∈ items, item.IsPlain) :
    (arr items).IsPlain := by
  induction items with
  | nil => exact ⟨rfl, rfl⟩
  | cons item rest ih =>
      have first := plain item (List.mem_cons_self ..)
      have others := ih fun other member => plain other (List.mem_cons_of_mem _ member)
      refine ⟨?_, ?_⟩
      · exact Bool.and_eq_true_iff.2 ⟨first.finite, others.finite⟩
      · exact Bool.and_eq_true_iff.2 ⟨first.distinct, others.distinct⟩

theorem isPlain_obj {members : Table Json} (distinct : (Table.keys members).Nodup)
    (plain : ∀ m ∈ members, m.2.IsPlain) : (obj members).IsPlain := by
  have values : membersAreFinite members = true ∧ membersHaveDistinctNames members = true := by
    clear distinct
    induction members with
    | nil => exact ⟨rfl, rfl⟩
    | cons m rest ih =>
        have first := plain m (List.mem_cons_self ..)
        have others := ih fun other member => plain other (List.mem_cons_of_mem _ member)
        refine ⟨?_, ?_⟩
        · exact Bool.and_eq_true_iff.2 ⟨first.finite, others.1⟩
        · exact Bool.and_eq_true_iff.2 ⟨first.distinct, others.2⟩
  exact ⟨values.1, Bool.and_eq_true_iff.2 ⟨decide_eq_true distinct, values.2⟩⟩

theorem isPlain_str (t : String) : (str t).IsPlain := ⟨rfl, rfl⟩

theorem isPlain_int (i : Int) : (int i).IsPlain := ⟨rfl, rfl⟩

theorem isPlain_bool (b : Bool) : (bool b).IsPlain := ⟨rfl, rfl⟩

end Json

theorem isPlain_optionalText (t : Option String) : (optionalText t).IsPlain := by
  cases t <;> exact ⟨rfl, rfl⟩

/-- The schemas of an action. -/
def Action.schemas (a : Action) : List SchemaTable :=
  [a.params, a.query, a.body, a.returns] ++ a.errors.map ErrorContract.payload

theorem ErrorContract.isPlain_fields {e : ErrorContract} (plain : (Json.obj e.payload).IsPlain) :
    e.fields.IsPlain := by
  refine Json.isPlain_obj ?_ ?_
  · change ["code", "description", "payloadType"].Nodup
    decide
  · simp only [List.forall_mem_cons, List.not_mem_nil, false_imp_iff, implies_true, and_true]
    exact ⟨Json.isPlain_str _, isPlain_optionalText _, plain⟩

/-- The document of an action with plain schemas is plain. -/
theorem Action.isPlain_fields {a : Action}
    (plain : ∀ schema ∈ a.schemas, (Json.obj schema).IsPlain) : a.fields.IsPlain := by
  have schemas : (Json.obj a.params).IsPlain ∧ (Json.obj a.query).IsPlain ∧
      (Json.obj a.body).IsPlain ∧ (Json.obj a.returns).IsPlain ∧
        ∀ payload ∈ a.errors.map ErrorContract.payload, (Json.obj payload).IsPlain := by
    simpa only [Action.schemas, List.cons_append, List.nil_append, List.forall_mem_cons] using plain
  obtain ⟨params, query, body, returns, payloads⟩ := schemas
  have errors : (Json.arr (a.errors.map ErrorContract.fields)).IsPlain := by
    refine Json.isPlain_arr fun document member => ?_
    obtain ⟨e, declared, rfl⟩ := List.mem_map.1 member
    exact e.isPlain_fields (payloads _ (List.mem_map_of_mem declared))
  refine Json.isPlain_obj ?_ ?_
  · change ["name", "controllerName", "operationId", "description", "returnDescription",
      "defaultStatusCode", "validateInput", "validateOutput", "paramsType", "queryType", "bodyType",
      "returnType", "errors"].Nodup
    decide
  · simp only [List.forall_mem_cons, List.not_mem_nil, false_imp_iff, implies_true, and_true]
    exact ⟨Json.isPlain_str _, isPlain_optionalText _, isPlain_optionalText _,
      isPlain_optionalText _, isPlain_optionalText _, Json.isPlain_int _, Json.isPlain_bool _,
      Json.isPlain_bool _, params, query, body, returns, errors⟩

/-- The document of an action with plain schemas holds its fields as they are. -/
theorem Action.toJson_eq_fields {a : Action}
    (plain : ∀ schema ∈ a.schemas, (Json.obj schema).IsPlain) : a.toJson = a.fields :=
  finiteJson_eq_self (Action.isPlain_fields plain).finite

/-! ## Contracts as a document holds them -/

/-- An error as a document holds it. -/
def ErrorContract.finite (e : ErrorContract) : ErrorContract :=
  { e with payload := finiteMembers e.payload }

/-- An action as a document holds it: null stands for a number that is not finite. -/
def Action.finite (a : Action) : Action :=
  { a with
    params := finiteMembers a.params
    query := finiteMembers a.query
    body := finiteMembers a.body
    returns := finiteMembers a.returns
    errors := a.errors.map ErrorContract.finite }

theorem finiteJson_optionalText (t : Option String) :
    finiteJson (optionalText t) = optionalText t := by
  cases t <;> rfl

theorem ErrorContract.fields_finite (e : ErrorContract) :
    e.finite.fields = finiteJson e.fields := by
  simp only [ErrorContract.fields, finiteJson, finiteMembers, finiteJson_optionalText]
  rfl

theorem finiteItems_fields (errors : List ErrorContract) :
    finiteItems (errors.map ErrorContract.fields) =
      (errors.map ErrorContract.finite).map ErrorContract.fields := by
  induction errors with
  | nil => rfl
  | cons e rest ih =>
      rw [List.map_cons, finiteItems, ih, ← e.fields_finite]
      rfl

/-- The document of an action holds the fields of the action as the document holds it. -/
theorem Action.fields_finite (a : Action) : a.finite.fields = a.toJson := by
  simp only [Action.toJson, Action.fields, finiteJson, finiteMembers, finiteJson_optionalText,
    finiteItems_fields]
  rfl

theorem Action.toJson_finite (a : Action) : a.finite.toJson = a.toJson := by
  rw [Action.toJson, a.fields_finite, Action.toJson]
  exact finiteJson_eq_self (isFinite_finiteJson _)

theorem Action.schemas_finite (a : Action) : a.finite.schemas = a.schemas.map finiteMembers := by
  simp only [Action.schemas, Action.finite, List.map_append, List.map_cons, List.map_nil,
    List.map_map]
  rfl

/-- What a document holds of an action is plain as soon as names are distinct. -/
theorem Action.isPlain_finite {a : Action}
    (distinct : ∀ schema ∈ a.schemas, (Json.obj schema).hasDistinctNames = true) :
    ∀ schema ∈ a.finite.schemas, (Json.obj schema).IsPlain := by
  intro schema listed
  rw [a.schemas_finite] at listed
  obtain ⟨original, declared, rfl⟩ := List.mem_map.1 listed
  refine ⟨isFinite_finiteJson (.obj original), ?_⟩
  rw [← distinct original declared]
  exact hasDistinctNames_finiteJson (.obj original)

/-- A route as a document holds it. -/
def RouteEntry.finite (r : RouteEntry) : RouteEntry := { r with action := r.action.finite }

/-! ## Fields -/

namespace Reading

theorem nullableText_optionalText (t : Option String) :
    nullableText (optionalText t) = .ok t := by
  cases t <;> rfl

section Fields

variable {α : Type} {members : Table Json} {names : List String} {name : String} {v : Json}
  {x : α}

theorem defaulted_of_find? (read : Json → Reading α)
    (found : find? members names = some (name, v)) (reads : read v = .ok x) (default : α) :
    defaulted members names default read = ⟨x, []⟩ := by
  rw [defaulted, found]
  dsimp only
  rw [reads]

theorem needed_of_find? (read : Json → Reading α)
    (found : find? members names = some (name, v)) (reads : read v = .ok x) (default : α) :
    needed members names default read = ⟨x, []⟩ := by
  rw [needed, found]
  exact defaulted_of_find? read found reads default

/-- Items that are read one by one are read together. -/
theorem itemsFrom_map {β : Type} {read : Json → Reading β} {write : β → Json}
    (inverse : ∀ x, read (write x) = .ok x) (position : Nat) (xs : List β) :
    itemsFrom read position (xs.map write) = .ok xs := by
  induction xs generalizing position with
  | nil => rfl
  | cons x rest ih => rw [List.map_cons, itemsFrom, inverse, ih]

end Fields

end Reading

open Reading

/-! ## Errors, actions and routes -/

/-- The members of an object. -/
def Json.parts (v : Json) : Table Json := v.members?.getD []

theorem ErrorContract.read_fields (e : ErrorContract) : ErrorContract.read e.fields = .ok e := by
  have code : needed e.fields.parts ["code"] "" text = ⟨e.code, []⟩ :=
    needed_of_find? text rfl rfl _
  have description : defaulted e.fields.parts ["description"] none nullableText =
      ⟨e.description, []⟩ :=
    defaulted_of_find? nullableText rfl (nullableText_optionalText _) _
  have payload : defaulted e.fields.parts ["payloadType", "payload_schema"] [] table =
      ⟨e.payload, []⟩ :=
    defaulted_of_find? table rfl rfl _
  change ErrorContract.read (.obj e.fields.parts) = .ok e
  rw [ErrorContract.read, code, description, payload]
  rfl

theorem readErrors_fields (errors : List ErrorContract) :
    readErrors (.arr (errors.map ErrorContract.fields)) = .ok errors :=
  itemsFrom_map ErrorContract.read_fields 0 errors

/-- **An action is read back from its document.** -/
theorem Action.read_fields (a : Action) : Action.read a.fields = .ok a := by
  have name : needed a.fields.parts ["name"] "" text = ⟨a.name, []⟩ :=
    needed_of_find? text rfl rfl _
  have owner : defaulted a.fields.parts ["controllerName", "owner_name"] none nullableText =
      ⟨a.owner, []⟩ :=
    defaulted_of_find? nullableText rfl (nullableText_optionalText _) _
  have operationId : defaulted a.fields.parts ["operationId", "operation_id"] none nullableText =
      ⟨a.operationId, []⟩ :=
    defaulted_of_find? nullableText rfl (nullableText_optionalText _) _
  have description : defaulted a.fields.parts ["description"] none nullableText =
      ⟨a.description, []⟩ :=
    defaulted_of_find? nullableText rfl (nullableText_optionalText _) _
  have returnDescription :
      defaulted a.fields.parts ["returnDescription", "return_description"] none nullableText =
        ⟨a.returnDescription, []⟩ :=
    defaulted_of_find? nullableText rfl (nullableText_optionalText _) _
  have statusCode :
      defaulted a.fields.parts ["defaultStatusCode", "default_status_code"] 200 integer =
        ⟨a.statusCode, []⟩ :=
    defaulted_of_find? integer rfl rfl _
  have validateInput : defaulted a.fields.parts ["validateInput", "validate_input"] true boolean =
      ⟨a.validateInput, []⟩ :=
    defaulted_of_find? boolean rfl rfl _
  have validateOutput :
      defaulted a.fields.parts ["validateOutput", "validate_output"] true boolean =
        ⟨a.validateOutput, []⟩ :=
    defaulted_of_find? boolean rfl rfl _
  have params : defaulted a.fields.parts ["paramsType", "params_schema"] [] table =
      ⟨a.params, []⟩ :=
    defaulted_of_find? table rfl rfl _
  have query : defaulted a.fields.parts ["queryType", "query_schema"] [] table =
      ⟨a.query, []⟩ :=
    defaulted_of_find? table rfl rfl _
  have body : defaulted a.fields.parts ["bodyType", "body_schema"] [] table = ⟨a.body, []⟩ :=
    defaulted_of_find? table rfl rfl _
  have returns : defaulted a.fields.parts ["returnType", "return_schema"] [] table =
      ⟨a.returns, []⟩ :=
    defaulted_of_find? table rfl rfl _
  have errors : defaulted a.fields.parts ["errors"] [] readErrors = ⟨a.errors, []⟩ :=
    defaulted_of_find? readErrors rfl (readErrors_fields _) _
  change Action.read (.obj a.fields.parts) = .ok a
  rw [Action.read, name, owner, operationId, description, returnDescription, statusCode,
    validateInput, validateOutput, params, query, body, returns, errors]
  rfl

/-- **A route is read back from its document.** -/
theorem RouteEntry.read_fields (r : RouteEntry) : RouteEntry.read r.fields = .ok r := by
  have pattern : needed r.fields.parts ["pattern"] "" text = ⟨r.pattern, []⟩ :=
    needed_of_find? text rfl rfl _
  have path : needed r.fields.parts ["path"] "" text = ⟨r.path, []⟩ :=
    needed_of_find? text rfl rfl _
  have action : needed r.fields.parts ["actionMetadata", "action"] Action.blank Action.read =
      ⟨r.action, []⟩ :=
    needed_of_find? Action.read rfl (Action.read_fields _) _
  change RouteEntry.read (.obj r.fields.parts) = .ok r
  rw [RouteEntry.read, pattern, path, action]
  rfl

/-! ## Snapshots -/

theorem readRoutes_of_forall₂ {documents : List Json} {entries : List RouteEntry}
    (valid : List.Forall₂ (fun d entry => RouteEntry.read d = .ok entry) documents entries) :
    readRoutes documents = .ok entries := by
  induction valid with
  | nil => rfl
  | cons first _ ih =>
      rw [readRoutes, first]
      dsimp only
      rw [ih]
      rfl

/-- The members of a document hold buckets: each is a list of documents that are read as the routes
of the bucket under the same method. -/
def HoldBuckets (members : Table Json) (buckets : Table (List RouteEntry)) : Prop :=
  List.Forall₂ (fun member bucket => member.1 = bucket.1 ∧ ∃ documents, member.2 = .arr documents ∧
    List.Forall₂ (fun d entry => RouteEntry.read d = .ok entry) documents bucket.2) members buckets

/-- Buckets under their methods in lower case. -/
def lowerMethods (buckets : Table (List RouteEntry)) : Table (List RouteEntry) :=
  buckets.map fun bucket => (Text.Unicode.lowercase bucket.1, bucket.2)

/-- Buckets are read one over the other, each under its method in lower case. -/
theorem readBuckets_of_holdBuckets {members : Table Json} {buckets : Table (List RouteEntry)}
    (hold : HoldBuckets members buckets) (done : Table (List RouteEntry)) :
    readBuckets done members = .ok (Table.putAll done (lowerMethods buckets)) := by
  induction hold generalizing done with
  | nil => rfl
  | @cons member bucket rest others first _ ih =>
      obtain ⟨method, v⟩ := member
      obtain ⟨rfl, documents, rfl, valid⟩ := first
      rw [readBuckets, routeDocuments]
      dsimp only
      rw [readRoutes_of_forall₂ valid]
      exact ih _

/-- **A document of buckets is read**, later buckets over earlier ones of the same method. -/
theorem Snapshot.read_of_holdBuckets {members : Table Json} {buckets : Table (List RouteEntry)}
    (hold : HoldBuckets members buckets) :
    Snapshot.read (.obj members) = .ok ⟨Table.ofList (lowerMethods buckets)⟩ := by
  rw [Snapshot.read, readBuckets_of_holdBuckets hold]
  rfl

theorem holdBuckets_fields (buckets : Table (List RouteEntry)) :
    HoldBuckets (Table.mapValues (fun entries => .arr (entries.map RouteEntry.fields)) buckets)
      buckets := by
  rw [HoldBuckets, Table.mapValues, List.forall₂_map_left_iff, List.forall₂_same]
  intro bucket _
  refine ⟨rfl, _, rfl, ?_⟩
  rw [List.forall₂_map_left_iff, List.forall₂_same]
  intro entry _
  exact RouteEntry.read_fields entry

/-- Methods in lower case stay as they are. -/
theorem lowerMethods_eq_self {buckets : Table (List RouteEntry)}
    (lowercase : ∀ method ∈ Table.keys buckets, Text.Unicode.lowercase method = method) :
    lowerMethods buckets = buckets := by
  refine (List.map_congr_left fun bucket listed => ?_).trans buckets.map_id
  rw [lowercase bucket.1 (Table.mem_keys_of_mem listed), id]

/-- **A snapshot is read back from its document.** -/
theorem Snapshot.read_fields {s : Snapshot} (distinct : (Table.keys s.routes).Nodup)
    (lowercase : ∀ method ∈ Table.keys s.routes, Text.Unicode.lowercase method = method) :
    Snapshot.read s.fields = .ok s := by
  rw [Snapshot.fields, Snapshot.read_of_holdBuckets (holdBuckets_fields s.routes),
    lowerMethods_eq_self lowercase, Table.ofList_eq_self distinct]

end RouteContract
