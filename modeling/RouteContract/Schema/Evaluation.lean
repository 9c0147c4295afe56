import RouteContract.Schema.Dialect
import RouteContract.Schema.Scope
import RouteContract.Schema.Violation

/-!
# Evaluating a schema

A value is evaluated against a schema keyword by keyword, in the order in which the schema has them.
In most dialects a schema with a reference consists of that reference alone. Subschemas are applied
to the value itself, to its items, its members or their names, each in the dialect that it names or
else in that of the schema it stands in.

Where only the verdict counts, the evaluation stops at the first violation, and faults behind it do
not arise. Evaluation ends because each step takes a part of the value, or follows one of a bounded
number of references, or goes into a part of the schema.
-/

namespace RouteContract.Schema

set_option autoImplicit false

open RouteContract Pointer Number

/-! ## Keywords -/

/-- Keywords that stand for their subschemas and leave no step of their own in the path of a
violation. -/
def leavesNoStep (keyword : String) : Bool :=
  keyword = "if" || keyword = "$ref" || keyword = "$dynamicRef"

/-- The list of schemas that a keyword holds, or why there is none. -/
def notAList (x : Json) : Except Fault Unit :=
  match x with
  | .str s => if s.isEmpty then .ok () else .error .notASchema
  | .obj members => if members.isEmpty then .ok () else .error .notASchema
  | .arr _ => .ok ()
  | _ => .error .wrongKind

/-- The regular expression of all pattern properties together. -/
def joinedPatterns (schema : List (String × Json)) : Except Fault String :=
  let texts : Except Fault (List Json) :=
    match Table.get? schema "patternProperties" with
    | none => .ok []
    | some x => elements x
  match texts with
  | .error e => .error e
  | .ok values =>
      match values.mapM Json.text? with
      | some sources => .ok ("|".intercalate sources)
      | none => .error .wrongKind

/-- Whether a member of an object is an additional one: not declared, and not matched by the joined
patterns. -/
def isAdditional (declared : Json) (patterns name : String) : Except Fault Bool :=
  match namesContain declared name with
  | .error e => .error e
  | .ok true => .ok false
  | .ok false =>
      if patterns.isEmpty then .ok true else (patternOccurs patterns name).map (!·)

/-- The additional members of an object. -/
def additionalMembers (schema members : List (String × Json)) :
    Except Fault (List { entry : String × Json // entry ∈ members }) :=
  match joinedPatterns schema with
  | .error e => .error e
  | .ok patterns =>
      let declared := (Table.get? schema "properties").getD (.obj [])
      keepIf (fun entry => isAdditional declared patterns entry.1.1) members.attach

/-- The number of items that have schemas of their own, or nothing when `additionalItems` does not
apply. -/
def fixedItems? (schema : List (String × Json)) : Except Fault (Option Nat) :=
  match Table.get? schema "items" with
  | none => .ok none
  | some (.obj _) => .ok none
  | some (.arr schemas) => .ok (some schemas.length)
  | some (.str s) => .ok (some s.length)
  | some _ => .error .wrongKind

/-- The message about items beyond those that have schemas. -/
def additionalItemsMessage (extra : List Json) : String :=
  "Additional items are not allowed (" ++ ", ".intercalate (extra.map Json.display) ++
    (if extra.length = 1 then " was unexpected)" else " were unexpected)")

/-- The number of first items that have schemas of their own. -/
def firstItems (schema : List (String × Json)) : Except Fault Nat :=
  match Table.get? schema "prefixItems" with
  | none => .ok 0
  | some x => (elements x).map List.length

/-- The message about items after the first ones, and the values that it shows. -/
def laterItemsMessage (first : Nat) (later : List Json) : List Json × String :=
  let rest :=
    match later with
    | [item] => item
    | _ => Json.arr later
  ([rest], "Expected at most " ++ toString first ++ (if first = 1 then " item" else " items") ++
    " but found " ++ toString later.length ++ " extra: " ++ rest.display)

/-- What a type is called in a message: by its name, if it is a schema that has one. -/
def typeShown (type : Json) : Json := (type.member? "name").getD type

/-- The refusal of an object by a schema, for a member that it lacks, that says of itself that it is
required. -/
def absentMember (schema members : List (String × Json)) (name : String) (sub : Json) :
    Except Fault (List Violation) :=
  match sub with
  | .obj keywords =>
      match Table.get? keywords "required" with
      | none => .ok []
      | some x =>
          if x.isVoid then .ok []
          else
            .ok [⟨some "required", x, (Json.str name).display ++ " is a required property",
              .obj members, schema, [.key "required"], []⟩]
  | _ => .error .notASchema

/-- What a count of satisfying items says: there are too many, too few, or none at all where some
are needed. -/
def countedFailure (schema : List (String × Json)) (x v : Json) (most : Json)
    (counted : Nat × Bool) : Except Fault (List Violation) :=
  let least := (Table.get? schema "minContains").getD (.int 1)
  if counted.2 then
    showing [most]
      (.here schema "maxContains" most v
        ("Too many items match the given schema (expected at most " ++ most.displayBare ++ ")"))
  else if counted.1 = 0 then
    refuteWhen (compareLimit Quantity.less (.int 0) least) [v]
      (.here schema "contains" x v
        (v.display ++ " does not contain items matching the given schema"))
  else
    refuteWhen (compareLimit Quantity.less (.int counted.1) least) [least]
      (.here schema "minContains" least v
        ("Too few items match the given schema (expected at least " ++ least.displayBare ++
          " but only " ++ toString counted.1 ++ " matched)"))

/-! ## Evaluation -/

mutual
/-- Apply a subschema to a value reached by a step, the subschema itself being reached by another
one. The schema that refuses everything leaves neither step. Which keywords count is up to the
dialect around the subschema, and what they do up to its own. -/
def descend (d : Dialect) (scope : Scope) (hops : Nat) (onlyFirst : Bool) (base : String)
    (step schemaStep : Option Step) (schema v : Json) : Except Fault (List Violation) :=
  match schema with
  | .bool true => .ok []
  | .bool false =>
      showing [v] ⟨none, .null, "False schema does not allow " ++ v.display, v, [], [], []⟩
  | .obj members =>
      match d.baseInside base members with
      | .error e => .error e
      | .ok inside =>
          match d.inside (.obj members) with
          | .error e => .error e
          | .ok own =>
              (applyAll d own scope hops onlyFirst inside members v).map
                (·.map (·.under step schemaStep))
  | x => .error (d.unusable x)
termination_by (v.weight, hops, schema.weight, 0)
decreasing_by
  all_goals simp only [Prod.lex_def, true_and, Json.weight]
  all_goals omega

/-- Whether a value satisfies a schema at the same base address. -/
def satisfies (d : Dialect) (scope : Scope) (hops : Nat) (base : String) (schema v : Json) :
    Except Fault Bool :=
  match d.inside schema with
  | .error e => .error e
  | .ok own =>
      match schema with
      | .bool true => .ok true
      | .bool false => (showing [v] false).map fun _ => false
      | .obj members => (applyAll own own scope hops true base members v).map List.isEmpty
      | _ => .error .notASchema
termination_by (v.weight, hops, schema.weight, 0)
decreasing_by
  all_goals simp only [Prod.lex_def, true_and, Json.weight]
  all_goals omega

/-- Apply the keywords of a schema in order: those that count in one dialect, as another one reads
them. -/
def applyAll (around own : Dialect) (scope : Scope) (hops : Nat) (onlyFirst : Bool) (base : String)
    (schema : List (String × Json)) (v : Json) : Except Fault (List Violation) :=
  collect onlyFirst
    (fun (entry : { entry // entry ∈ around.countingKeywords schema }) =>
      (applyKeyword own scope hops onlyFirst base schema entry.1.1 entry.1.2
          (Dialect.mem_of_mem_countingKeywords entry.2) v).map fun found =>
        if leavesNoStep entry.1.1 then found
        else found.map (·.under none (some (.key entry.1.1))))
    (around.countingKeywords schema).attach
termination_by (v.weight, hops, Json.weightMembers schema, 3)
decreasing_by
  all_goals simp only [Prod.lex_def, true_and]
  all_goals omega

/-- Apply one keyword of a schema. Unknown keywords accept everything. -/
def applyKeyword (d : Dialect) (scope : Scope) (hops : Nat) (onlyFirst : Bool) (base : String)
    (schema : List (String × Json)) (keyword : String) (x : Json) (hx : (keyword, x) ∈ schema)
    (v : Json) : Except Fault (List Violation) :=
  have _hw : x.weight < Json.weightMembers schema := Json.weight_lt_weightMembers hx
  match d.meaning? schema keyword with
  | none => .ok []
  | some (.assertion assertion) =>
      (assertion.failures onlyFirst x v).map (·.map (Violation.here schema keyword x v))
  | some .reference =>
      match x with
      | .str ref => follow d scope hops onlyFirst base ref v
      | _ => .error .notASchema
  | some .recursion => follow d scope hops onlyFirst base "#" v
  | some (.beside kind) => applyBeside d scope hops onlyFirst base schema keyword x hx v kind
  | some (.forItems kind) =>
      match v with
      | .arr items => applyToItems d scope onlyFirst base schema keyword x items kind
      | _ => .ok []
  | some (.forMembers kind) =>
      match v with
      | .obj members => applyToMembers d scope hops onlyFirst base schema keyword x hx members kind
      | _ => .ok []
termination_by (v.weight, hops, Json.weightMembers schema, 2)
decreasing_by
  all_goals simp only [Prod.lex_def, true_and, Json.weight] at *
  all_goals omega

/-- Apply the schema that a reference leads to. -/
def follow (d : Dialect) (scope : Scope) (hops : Nat) (onlyFirst : Bool) (base ref : String)
    (v : Json) : Except Fault (List Violation) :=
  match hops with
  | 0 => .error .endless
  | hops + 1 =>
      match scope.lookup base ref with
      | .error e => .error e
      | .ok (target, within) =>
          match d.inside target with
          | .error e => .error e
          | .ok own =>
              match target with
              | .bool b => descend d scope hops onlyFirst within none none (.bool b) v
              | .obj members => applyAll d own scope hops onlyFirst within members v
              | _ => .error .notASchema
termination_by (v.weight, hops, 0, 0)
decreasing_by
  all_goals simp only [Prod.lex_def, true_and]
  all_goals omega

/-- Apply a keyword that applies schemas to the value itself. -/
def applyBeside (d : Dialect) (scope : Scope) (hops : Nat) (onlyFirst : Bool) (base : String)
    (schema : List (String × Json)) (keyword : String) (x : Json) (hx : (keyword, x) ∈ schema)
    (v : Json) (kind : Beside) : Except Fault (List Violation) :=
  have _hw : x.weight < Json.weightMembers schema := Json.weight_lt_weightMembers hx
  let refusal := Violation.here schema keyword x v
  let noneHolds := refusal (v.display ++ " is not valid under any of the given schemas")
  match kind with
  | .allOf =>
      match x with
      | .arr subs =>
          collect onlyFirst
            (fun (entry : { sub // sub ∈ subs } × Nat) =>
              have := Json.weight_le_weightItems entry.1.2
              descend d scope hops onlyFirst base none (some (.index entry.2)) entry.1.1 v)
            subs.attach.zipIdx
      | _ => (notAList x).map fun _ => []
  | .anyOf =>
      match x with
      | .arr subs =>
          refuteUnless
            ((firstClean
              (fun (sub : { sub // sub ∈ subs }) =>
                have := Json.weight_le_weightItems sub.2
                descend d scope hops false base none none sub.1 v)
              subs.attach).map Option.isSome)
            [v] noneHolds
      | _ => refuteUnless ((notAList x).map fun _ => false) [v] noneHolds
  | .oneOf =>
      match x with
      | .arr subs =>
          match
            firstClean
              (fun (sub : { sub // sub ∈ subs }) =>
                have := Json.weight_le_weightItems sub.2
                descend d scope hops false base none none sub.1 v)
              subs.attach with
          | .error e => .error e
          | .ok none => showing [v] noneHolds
          | .ok (some (first, rest)) =>
              match
                keepIf
                  (fun (sub : { sub // sub ∈ subs }) =>
                    have := Json.weight_le_weightItems sub.2
                    satisfies d scope hops base sub.1 v)
                  rest with
              | .error e => .error e
              | .ok more =>
                  let holding := (more ++ [first]).map Subtype.val
                  refuteWhen (.ok !more.isEmpty) (v :: holding)
                    (refusal (v.display ++ " is valid under each of " ++
                      ", ".intercalate (holding.map Json.display)))
      | _ => refuteUnless ((notAList x).map fun _ => false) [v] noneHolds
  | .negation =>
      refuteWhen (satisfies d scope hops base x v) [v, x]
        (refusal (v.display ++ " should not be valid under " ++ x.display))
  | .condition =>
      match satisfies d scope hops base x v with
      | .error e => .error e
      | .ok b =>
          let branch := if b then "then" else "else"
          match hb : Table.get? schema branch with
          | none => .ok []
          | some sub =>
              have := Json.weight_lt_weightMembers (Table.mem_of_get? hb)
              descend d scope hops onlyFirst base none (some (.key branch)) sub v
  | .extension =>
      match x with
      | .obj members => descend d scope hops onlyFirst base none none (.obj members) v
      | .arr subs =>
          collect onlyFirst
            (fun (entry : { sub // sub ∈ subs } × Nat) =>
              have := Json.weight_le_weightItems entry.1.2
              descend d scope hops onlyFirst base none (some (.index entry.2)) entry.1.1 v)
            subs.attach.zipIdx
      | _ => (notAList x).map fun _ => []
  | .typeOrSchema =>
      match x with
      | .arr types => (notOfTypes d scope hops base types v).map (·.map refusal)
      | _ => (typeFailures TypeName.admitsStrictly x v).map (·.map refusal)
  | .exclusion =>
      match x with
      | .arr types =>
          collect onlyFirst
            (fun (type : { type // type ∈ types }) =>
              have := Json.weight_le_weightItems type.2
              refuteWhen ((notOfTypes d scope hops base [type.1] v).map List.isEmpty) [type.1, v]
                (refusal (type.1.display ++ " is disallowed for " ++ v.display)))
            types.attach
      | _ =>
          match typeNames x with
          | .error e => .error e
          | .ok names =>
              collect onlyFirst
                (fun name =>
                  refuteWhen
                    ((typeFailures TypeName.admitsStrictly (.arr [name]) v).map List.isEmpty)
                    [name, v] (refusal (name.display ++ " is disallowed for " ++ v.display)))
                names
termination_by (v.weight, hops, Json.weightMembers schema, 1)
decreasing_by
  all_goals simp only [Prod.lex_def, true_and, Json.weight, Json.weightItems] at *
  all_goals omega

/-- The message about a value that none of several types admits, where a schema may stand for a type.
-/
def notOfTypes (d : Dialect) (scope : Scope) (hops : Nat) (base : String) (types : List Json)
    (v : Json) : Except Fault (List String) :=
  let admitted :=
    existsIn
      (fun (type : { type // type ∈ types }) =>
        match ht : type.1 with
        | .str "any" => .ok true
        | .obj members =>
            have := ht ▸ Json.weight_le_weightItems type.2
            (descend d scope hops false base none none (.obj members) v).map List.isEmpty
        | other => isOfSomeType TypeName.admitsStrictly v [other])
      types.attach
  refuteUnless admitted (v :: types.map typeShown)
    (v.display ++ " is not of type " ++
      ", ".intercalate (types.map fun type => (typeShown type).display))
termination_by (v.weight, hops, Json.weightItems types, 1)
decreasing_by
  all_goals simp only [Prod.lex_def, true_and] at *
  all_goals omega

/-- Apply a schema to all items of an array behind the first ones. -/
def descendEach (d : Dialect) (scope : Scope) (onlyFirst : Bool) (base : String) (x : Json)
    (first : Nat) (items : List Json) : Except Fault (List Violation) :=
  collect onlyFirst
    (fun (entry : { item // item ∈ items } × Nat) =>
      have := Json.weight_le_weightItems entry.1.2
      descend d scope scope.chainLimit onlyFirst base (some (.index entry.2)) none x entry.1.1)
    (items.attach.zipIdx.drop first)
termination_by ((Json.arr items).weight, 0, 0, 0)
decreasing_by
  all_goals simp only [Prod.lex_def, Json.weight]
  all_goals omega

/-- Apply a schema of its own to each of the first items of an array. -/
def descendInTurn (d : Dialect) (scope : Scope) (onlyFirst : Bool) (base : String) (x : Json)
    (items : List Json) : Except Fault (List Violation) :=
  match x with
  | .arr subs =>
      collect onlyFirst
        (fun (entry : ({ item // item ∈ items } × { sub // sub ∈ subs }) × Nat) =>
          have := Json.weight_le_weightItems entry.1.1.2
          let i := Step.index entry.2
          descend d scope scope.chainLimit onlyFirst base (some i) (some i) entry.1.2.1 entry.1.1.1)
        (items.attach.zip subs.attach).zipIdx
  | _ => if items.isEmpty then (elements x).map fun _ => [] else (notAList x).map fun _ => []
termination_by ((Json.arr items).weight, 0, 0, 0)
decreasing_by
  all_goals simp only [Prod.lex_def, Json.weight]
  all_goals omega

/-- Apply a keyword that applies schemas to the items of an array. -/
def applyToItems (d : Dialect) (scope : Scope) (onlyFirst : Bool) (base : String)
    (schema : List (String × Json)) (keyword : String) (x : Json) (items : List Json)
    (kind : ForItems) : Except Fault (List Violation) :=
  let limit := scope.chainLimit
  let v := Json.arr items
  match kind with
  | .items =>
      match x with
      | .arr subs => descendInTurn d scope onlyFirst base (.arr subs) items
      | _ => descendEach d scope onlyFirst base x 0 items
  | .strictItems =>
      match x with
      | .obj members => descendEach d scope onlyFirst base (.obj members) 0 items
      | _ => descendInTurn d scope onlyFirst base x items
  | .firstItems => descendInTurn d scope onlyFirst base x items
  | .laterItems =>
      match firstItems schema with
      | .error e => .error e
      | .ok count =>
          match x with
          | .bool false =>
              let later := items.drop count
              let told := laterItemsMessage count later
              refuteWhen (.ok !later.isEmpty) told.1 (.here schema keyword x v told.2)
          | _ => descendEach d scope onlyFirst base x count items
  | .additionalItems =>
      match fixedItems? schema with
      | .error e => .error e
      | .ok none => .ok []
      | .ok (some count) =>
          match x with
          | .obj members => descendEach d scope onlyFirst base (.obj members) count items
          | _ =>
              let extra := items.drop count
              refuteWhen (.ok (x.isVoid && count < items.length)) extra
                (.here schema keyword x v (additionalItemsMessage extra))
  | .contains =>
      refuteUnless
        (existsIn
          (fun (item : { item // item ∈ items }) =>
            have := Json.weight_le_weightItems item.2
            satisfies d scope limit base x item.1)
          items.attach)
        [v] (.here schema keyword x v ("None of " ++ v.display ++ " are valid under the given schema"))
  | .containsCounted =>
      let most := (Table.get? schema "maxContains").getD (.int items.length)
      match d.inside x with
      | .error e => .error e
      | .ok _ =>
          match
            countIn (fun count => compareLimit (fun a b => Quantity.less b a) (.int count) most)
              (fun (item : { item // item ∈ items }) =>
                have := Json.weight_le_weightItems item.2
                satisfies d scope limit base x item.1)
              0 items.attach with
          | .error e => .error e
          | .ok counted => countedFailure schema x v most counted
termination_by ((Json.arr items).weight, 0, 0, 1)
decreasing_by
  all_goals simp only [Prod.lex_def, true_and, Json.weight]
  all_goals omega

/-- Apply a keyword that applies schemas to the members of an object. -/
def applyToMembers (d : Dialect) (scope : Scope) (hops : Nat) (onlyFirst : Bool) (base : String)
    (schema : List (String × Json)) (keyword : String) (x : Json) (hx : (keyword, x) ∈ schema)
    (members : List (String × Json)) (kind : ForMembers) : Except Fault (List Violation) :=
  have _hw : x.weight < Json.weightMembers schema := Json.weight_lt_weightMembers hx
  let limit := scope.chainLimit
  let refusal := Violation.here schema keyword x (.obj members)
  let lacking := fun (name : String) (names : List Json) =>
    (missingMessages onlyFirst (" is a dependency of " ++ (Json.str name).display) members names).map
      (·.map refusal)
  match kind with
  | .properties =>
      match x with
      | .obj subs =>
          collect onlyFirst
            (fun (entry : String × Json) =>
              match hv : Table.get? members entry.1 with
              | none => .ok []
              | some w =>
                  have := Json.weight_lt_weightMembers (Table.mem_of_get? hv)
                  let key := Step.key entry.1
                  descend d scope limit onlyFirst base (some key) (some key) entry.2 w)
            subs
      | _ => .error .notASchema
  | .requiringProperties =>
      match x with
      | .obj subs =>
          collect onlyFirst
            (fun (entry : String × Json) =>
              match hv : Table.get? members entry.1 with
              | none => absentMember schema members entry.1 entry.2
              | some w =>
                  have := Json.weight_lt_weightMembers (Table.mem_of_get? hv)
                  let key := Step.key entry.1
                  descend d scope limit onlyFirst base (some key) (some key) entry.2 w)
            subs
      | _ => .error .notASchema
  | .patternProperties =>
      match x with
      | .obj subs =>
          collect onlyFirst
            (fun (entry : String × Json) =>
              collect onlyFirst
                (fun (member : { member // member ∈ members }) =>
                  match patternOccurs entry.1 member.1.1 with
                  | .error e => .error e
                  | .ok false => .ok []
                  | .ok true =>
                      have := Json.weight_lt_weightMembers member.2
                      descend d scope limit onlyFirst base (some (.key member.1.1))
                        (some (.key entry.1)) entry.2 member.1.2)
                members.attach)
            subs
      | _ => .error .notASchema
  | .additionalProperties =>
      match additionalMembers schema members with
      | .error e => .error e
      | .ok extras =>
          match x with
          | .obj _ =>
              collect onlyFirst
                (fun (member : { member // member ∈ members }) =>
                  have := Json.weight_lt_weightMembers member.2
                  descend d scope limit onlyFirst base (some (.key member.1.1)) none x member.1.2)
                extras
          | _ =>
              if x.isVoid && !extras.isEmpty then
                .ok [refusal "Additional properties are not allowed"]
              else .ok []
  | .propertyNames =>
      collect onlyFirst
        (fun (member : { member // member ∈ members }) =>
          have := Json.weight_lt_weightMembers member.2
          descend d scope limit onlyFirst base none none x (.str member.1.1))
        members.attach
  | .dependencies =>
      match x with
      | .obj subs =>
          collect onlyFirst
            (fun (entry : { sub // sub ∈ subs }) =>
              if Table.has members entry.1.1 then
                match entry.1.2 with
                | .arr names => lacking entry.1.1 names
                | _ =>
                    have := Json.weight_lt_weightMembers entry.2
                    descend d scope hops onlyFirst base none (some (.key entry.1.1)) entry.1.2
                      (.obj members)
              else .ok [])
            subs.attach
      | _ => .error .notASchema
  | .looseDependencies =>
      match x with
      | .obj subs =>
          collect onlyFirst
            (fun (entry : { sub // sub ∈ subs }) =>
              if Table.has members entry.1.1 then
                match entry.1.2 with
                | .obj _ =>
                    have := Json.weight_lt_weightMembers entry.2
                    descend d scope hops onlyFirst base none (some (.key entry.1.1)) entry.1.2
                      (.obj members)
                | names => (typeNames names).bind (lacking entry.1.1)
              else .ok [])
            subs.attach
      | _ => .error .notASchema
  | .dependentRequired =>
      match x with
      | .obj subs =>
          collect onlyFirst
            (fun (entry : String × Json) =>
              if Table.has members entry.1 then (elements entry.2).bind (lacking entry.1)
              else .ok [])
            subs
      | _ => .error .notASchema
  | .dependentSchemas =>
      match x with
      | .obj subs =>
          collect onlyFirst
            (fun (entry : { sub // sub ∈ subs }) =>
              if Table.has members entry.1.1 then
                have := Json.weight_lt_weightMembers entry.2
                descend d scope hops onlyFirst base none (some (.key entry.1.1)) entry.1.2
                  (.obj members)
              else .ok [])
            subs.attach
      | _ => .error .notASchema
termination_by ((Json.obj members).weight, hops, Json.weightMembers schema, 1)
decreasing_by
  all_goals simp only [Prod.lex_def, true_and, Json.weight] at *
  all_goals omega
end

end RouteContract.Schema
