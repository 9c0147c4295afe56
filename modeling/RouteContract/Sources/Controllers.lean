import RouteContract.Sources.Description

/-!
# Controllers of a module

The controllers of a module are its classes that build on the general controller, under each name
that the module has bound to them. The types of an action are those of its request and of what it
answers; names in its signature are resolved in the whole module, and one that stands for nothing
spoils the module. An action without documentation takes that of the nearest action of its name
among the classes that its controller builds on.
-/

namespace RouteContract.Sources

set_option autoImplicit false

open RouteContract Shape

/-! ## Documentation -/

namespace Module

/-- An action in the body of a class. -/
def ownAction? (m : Module) (name : String) : Ancestor → Option ActionDefinition
  | .declared c =>
      match (m.class? c).map Class.form with
      | some (.controller actions) => Table.get? actions name
      | _ => none
  | .general _ => none

/-- The action that a class has under a name, its own or one of a class that it builds on. -/
def action? (m : Module) (name : String) (a : Ancestor) : Option ActionDefinition :=
  (m.lineage a).findSome? (m.ownAction? name)

/-- Whether a class is the one that its name is bound to in the end. -/
def isBound (m : Module) (c : ClassId) (definition : Class) : Bool :=
  match Table.get? m.scope.names definition.name with
  | some (.declared d) => c == d
  | _ => false

/-- The documentation string of an action of a class. -/
def actionDoc? (m : Module) (c : ClassId) (definition : Class) (a : ActionDefinition) :
    Option String :=
  match a.doc with
  | some doc => some doc
  | none =>
      if m.isBound c definition then
        definition.lineage.findSome? fun base => (m.action? a.name base).bind ActionDefinition.doc
      else none

end Module

/-! ## Actions -/

/-- The name of a parameter without the stars before it. -/
def parameterName (written : String) : String :=
  String.ofList (written.toList.dropWhile (· == '*'))

/-- A parameter with its hint resolved. -/
def resolveParameter (m : Module) (p : String × Option Term) :
    Except SourceError (String × Option Term) :=
  match p.2 with
  | none => .ok (parameterName p.1, none)
  | some t => (m.scope.resolve false t).map fun t => (parameterName p.1, some t)

/-- The hint of the first parameter beside the controller itself. -/
def requestHint? (parameters : List (String × Option Term)) : Option Term :=
  (parameters.find? fun p => p.1 != "self").bind Prod.snd

/-- Describe a part of a request; one that is the type of null declares nothing. -/
def describePart (m : Module) (t : Term) : Describing (Option TypeId) :=
  if t.isNothing then pure none else do return some (← m.describe t)

/-- Describe the three parts of a request. -/
def describeRequest (m : Module) :
    Option Term → Describing (Option TypeId × Option TypeId × Option TypeId)
  | some (.applied "Request" [params, query, body]) => do
      return (← describePart m params, ← describePart m query, ← describePart m body)
  | _ => pure (none, none, none)

/-- Describe a raised error. -/
def describeRaised (m : Module) (r : Raised) : Describing DeclaredError := do
  return ⟨.str r.code.displayBare, r.description, some (← m.describe r.payload)⟩

/-- What an option says, if it was given. -/
def ActionDefinition.option (a : ActionDefinition) (name : String) (default : Json) : Json :=
  (Table.get? a.options name).getD default

/-- The description of an action: what its routes say, or the first paragraph of its documentation.
-/
def descriptionOf (a : ActionDefinition) (doc : Option String) : Json :=
  let given := a.option "description" .null
  if given.isVoid then (doc.bind Docstring.firstParagraph?).elim .null .str else given

/-- The terms of an action. -/
def termsOf (a : ActionDefinition) (doc : Option String) : DeclaredTerms :=
  { operationId := a.option "operation_id" .null
    description := descriptionOf a doc
    returnDescription := a.option "returns" .null
    statusCode := a.option "status_code" (.int 200)
    validateInput := a.option "validate_input" (.bool true)
    validateOutput := a.option "validate_output" (.bool true) }

/-- Describe an action of a class. -/
def describeAction (m : Module) (c : ClassId) (definition : Class) (a : ActionDefinition) :
    Describing DeclaredAction := do
  let parameters ← liftResult (a.parameters.mapM (resolveParameter m))
  let returns ← liftResult (a.returns.mapM (m.scope.resolve false))
  let (params, query, body) ← describeRequest m (requestHint? parameters)
  let returns ← returns.mapM m.describe
  let errors ← a.raises.mapM (describeRaised m)
  return ⟨a.name, a.routes, params, query, body, returns, errors,
    termsOf a (m.actionDoc? c definition a)⟩

/-! ## Controllers -/

/-- Describe the actions of a class that have routes; nothing when there are none. -/
def describeController (m : Module) (c : ClassId) : Describing (Option Controller) := do
  match m.class? c with
  | some definition =>
      match definition.form with
      | .controller actions =>
          if definition.lineage.contains (.general "Controller") then
            let routed := (Table.values actions).filter fun a => !a.routes.isEmpty
            let described ← routed.mapM (describeAction m c definition)
            return if described.isEmpty then none else some ⟨definition.name, described⟩
          else return none
      | _ => return none
  | none => return none

/-- The classes that a module has bound names to, in order. -/
def Module.boundClasses (m : Module) : List ClassId :=
  (Table.values m.scope.names).filterMap fun t =>
    match t with
    | .declared c => some c
    | _ => none

/-- The controllers of a module. -/
def Module.declaration (m : Module) : Except SourceError Declaration :=
  match (m.boundClasses.mapM (describeController m)).run Description.empty with
  | (.ok controllers, d) => .ok ⟨d.types, controllers.filterMap id⟩
  | (.error e, _) => .error e

end RouteContract.Sources
