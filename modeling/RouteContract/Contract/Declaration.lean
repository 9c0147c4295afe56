import RouteContract.Contract.Document
import RouteContract.Shape.Compilation

/-!
# Declared controllers

A controller declares actions: the routes that lead to them, the types of what they take and answer,
and the terms on which they do. The contract of an action is built from its declaration by compiling
each of the types.
-/

namespace RouteContract

set_option autoImplicit false

open Shape

/-- A route as it is declared. -/
structure DeclaredRoute where
  method : String
  path : String
deriving Repr, DecidableEq

/-- An error as it is declared. What is not a type is read when the contract is built. -/
structure DeclaredError where
  code : Json
  description : Json
  payload : Option TypeId

/-- What is declared of an action beside its types; each is read when the contract is built. -/
structure DeclaredTerms where
  operationId : Json := .null
  description : Json := .null
  returnDescription : Json := .null
  statusCode : Json := .int 200
  validateInput : Json := .bool true
  validateOutput : Json := .bool true

/-- An action as it is declared. -/
structure DeclaredAction where
  name : String
  routes : List DeclaredRoute
  params : Option TypeId
  query : Option TypeId
  body : Option TypeId
  returns : Option TypeId
  errors : List DeclaredError
  terms : DeclaredTerms

/-- A controller with its actions. -/
structure Controller where
  owner : String
  actions : List DeclaredAction

/-- Controllers and the types that their actions are declared with. -/
structure Declaration where
  types : Graph
  controllers : List Controller

/-! ## Contracts -/

/-- Why a declaration has no contract. -/
inductive BuildError where
  /-- A type has no schema. -/
  | type (e : CompileError)
  /-- A term is not what it should be. -/
  | invalid (issues : List Issue)

/-- The schema of a type that may be missing; nothing is demanded where it is. -/
def schemaOf (g : Graph) : Option TypeId → Except BuildError Json
  | none => .ok (.obj [])
  | some t =>
      match g.compile t [] [] with
      | .ok schema => .ok schema
      | .error e => .error (.type e)

/-- What a reading yields, its issues being an error. -/
def built {α : Type} (r : Reading α) : Except BuildError α := r.mapError .invalid

/-- The contract of a declared error. -/
def DeclaredError.toContract (g : Graph) (e : DeclaredError) : Except BuildError ErrorContract := do
  let payload ← schemaOf g e.payload
  built (ErrorContract.read
    (.obj [("code", e.code), ("description", e.description), ("payload_schema", payload)]))

/-- The contract of a declared action. -/
def DeclaredAction.toContract (g : Graph) (owner : String) (a : DeclaredAction) :
    Except BuildError Action := do
  let params ← schemaOf g a.params
  let query ← schemaOf g a.query
  let body ← schemaOf g a.body
  let returns ← schemaOf g a.returns
  let errors ← a.errors.mapM (DeclaredError.toContract g)
  let action ← built (Action.read
    (.obj
      [("name", .str a.name), ("owner_name", .str owner), ("operation_id", a.terms.operationId),
        ("description", a.terms.description), ("return_description", a.terms.returnDescription),
        ("default_status_code", a.terms.statusCode), ("validate_input", a.terms.validateInput),
        ("validate_output", a.terms.validateOutput), ("params_schema", params),
        ("query_schema", query), ("body_schema", body), ("return_schema", returns)]))
  return { action with errors := errors }

end RouteContract
