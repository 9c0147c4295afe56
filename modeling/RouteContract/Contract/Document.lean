import RouteContract.Contract.Action
import RouteContract.Contract.Field

/-!
# Contracts from documents

An action, a route and a snapshot are read back from their documents. A field has a short name and a
longer one; the first counts where both are present, and unknown fields are ignored. Reading a
snapshot stops at the first route that has issues.
-/

namespace RouteContract

set_option autoImplicit false

open Reading

/-- Read an error. -/
def ErrorContract.read : Json → Reading ErrorContract
  | .obj members =>
      let code := needed members ["code"] "" text
      let description := defaulted members ["description"] none nullableText
      let payload := defaulted members ["payloadType", "payload_schema"] [] table
      let issues := code.issues ++ description.issues ++ payload.issues
      if issues.isEmpty then .ok ⟨code.value, description.value, payload.value⟩ else .error issues
  | _ => .fail .modelType

/-- Read the errors of an action. -/
def readErrors : Json → Reading (List ErrorContract)
  | .arr items => itemsFrom ErrorContract.read 0 items
  | _ => .fail .tupleType

/-- Read an action. -/
def Action.read : Json → Reading Action
  | .obj m =>
      let name := needed m ["name"] "" text
      let owner := defaulted m ["controllerName", "owner_name"] none nullableText
      let operationId := defaulted m ["operationId", "operation_id"] none nullableText
      let description := defaulted m ["description"] none nullableText
      let returnDescription :=
        defaulted m ["returnDescription", "return_description"] none nullableText
      let statusCode := defaulted m ["defaultStatusCode", "default_status_code"] 200 integer
      let validateInput := defaulted m ["validateInput", "validate_input"] true boolean
      let validateOutput := defaulted m ["validateOutput", "validate_output"] true boolean
      let params := defaulted m ["paramsType", "params_schema"] [] table
      let query := defaulted m ["queryType", "query_schema"] [] table
      let body := defaulted m ["bodyType", "body_schema"] [] table
      let returns := defaulted m ["returnType", "return_schema"] [] table
      let errors := defaulted m ["errors"] [] readErrors
      let issues :=
        name.issues ++ owner.issues ++ operationId.issues ++ description.issues ++
          returnDescription.issues ++ statusCode.issues ++ validateInput.issues ++
          validateOutput.issues ++ params.issues ++ query.issues ++ body.issues ++ returns.issues ++
          errors.issues
      if issues.isEmpty then
        .ok
          { name := name.value, owner := owner.value, operationId := operationId.value,
            description := description.value, returnDescription := returnDescription.value,
            statusCode := statusCode.value, validateInput := validateInput.value,
            validateOutput := validateOutput.value, params := params.value, query := query.value,
            body := body.value, returns := returns.value, errors := errors.value }
      else .error issues
  | _ => .fail .modelType

/-- An action about which nothing is said. -/
def Action.blank : Action :=
  { name := "", owner := none, operationId := none, description := none, returnDescription := none,
    statusCode := 200, validateInput := true, validateOutput := true, params := [], query := [],
    body := [], returns := [], errors := [] }

/-- Read a route. -/
def RouteEntry.read : Json → Reading RouteEntry
  | .obj members =>
      let pattern := needed members ["pattern"] "" text
      let path := needed members ["path"] "" text
      let action := needed members ["actionMetadata", "action"] Action.blank Action.read
      let issues := pattern.issues ++ path.issues ++ action.issues
      if issues.isEmpty then .ok ⟨pattern.value, path.value, action.value⟩ else .error issues
  | _ => .fail .modelType

/-! ## Snapshots -/

/-- Why a document is not read as a snapshot. -/
inductive DocumentError where
  /-- The document is no table of routes. -/
  | notATable
  /-- What stands under a method is no list. -/
  | notAList
  /-- A route has issues. -/
  | invalid (issues : List Issue)

/-- Read routes until one has issues. -/
def readRoutes : List Json → Except DocumentError (List RouteEntry)
  | [] => .ok []
  | v :: rest =>
      match RouteEntry.read v with
      | .error issues => .error (.invalid issues)
      | .ok entry => (readRoutes rest).map (entry :: ·)

/-- What stands under a method, as a list of documents of routes. -/
def routeDocuments : Json → Except DocumentError (List Json)
  | .arr items => .ok items
  | .obj members => .ok (members.map fun entry => .str entry.1)
  | .str s => .ok (s.toList.map fun c => .str (String.ofList [c]))
  | _ => .error .notAList

/-- Read the routes of each method over those read before. Methods that differ in letter case alone
are one method, and the later routes count. -/
def readBuckets (done : Table (List RouteEntry)) :
    List (String × Json) → Except DocumentError (Table (List RouteEntry))
  | [] => .ok done
  | (method, v) :: rest =>
      match routeDocuments v with
      | .error e => .error e
      | .ok documents =>
          match readRoutes documents with
          | .error e => .error e
          | .ok entries =>
              readBuckets (Table.put done (Text.Unicode.lowercase method) entries) rest

/-- Read a snapshot. -/
def Snapshot.read : Json → Except DocumentError Snapshot
  | .obj members => (readBuckets [] members).map Snapshot.mk
  | _ => .error .notATable

end RouteContract
