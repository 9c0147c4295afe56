import RouteContract.Sources.Class
import RouteContract.Text.Unicode.Lowercase

/-!
# Modules

A module is made by its definitions, one after the other. Each of them sees the names that were
bound before it, binds its own name when it is done, and the first that does not hold together is
the end of the module.
-/

namespace RouteContract.Sources

set_option autoImplicit false

open RouteContract

/-! ## Actions -/

/-- The methods that routes may be declared for. -/
def routeMethods : List String := ["get", "post", "put", "patch", "delete", "options", "head"]

/-- What a route may say about its action. -/
def optionNames : List String :=
  ["status_code", "validate_input", "validate_output", "operation_id", "description", "returns",
    "raises"]

/-- What several raised errors mean. -/
def evaluateRaised (s : Scope) (raised : List RaisedStatement) : Except SourceError (List Raised) :=
  raised.mapM fun r => (r.hint.evaluate s).map fun t => ⟨r.code, t, r.description⟩

/-- A route as it is declared, with the errors that it says its action raises. -/
def evaluateRoute (s : Scope) (r : RouteStatement) :
    Except SourceError (DeclaredRoute × Option (List Raised)) := do
  let raises ← match r.raises with
    | none => pure none
    | some raised => (evaluateRaised s raised).map some
  let method := Text.Unicode.lowercase r.method
  if !(Table.keys r.options).all optionNames.contains then throw .mismatch
  if !routeMethods.contains method then throw (.unknownMethod r.method)
  return (⟨method, r.path⟩, raises)

/-- What the routes of an action say about it together; of two the upper one counts, and null is as
good as silence. -/
def mergeOptions (routes : List RouteStatement) : Table Json :=
  routes.reverse.foldl
    (fun done r => Table.putAll done (r.options.filter fun o => match o.2 with
      | .null => false
      | _ => true))
    []

/-- A parameter with what its hint means. -/
def evaluateParameter (s : Scope) (p : ParameterStatement) :
    Except SourceError (String × Option Term) :=
  match p.hint with
  | none => .ok (p.name, none)
  | some h => (h.evaluate s).map fun t => (p.name, some t)

/-- An action of a controller. -/
def evaluateAction (s : Scope) (a : ActionStatement) : Except SourceError ActionDefinition := do
  let routes ← a.routes.mapM (evaluateRoute s)
  let parameters ← a.parameters.mapM (evaluateParameter s)
  let returns ← match a.returns with
    | none => pure none
    | some h => (h.evaluate s).map some
  return {
    name := a.name, routes := routes.map Prod.fst, options := mergeOptions a.routes,
    raises := ((routes.map Prod.snd).findSome? id).getD [], parameters := parameters,
    returns := returns, doc := a.doc }

/-! ## Definitions -/

namespace Module

/-- A module with one more name. -/
def bind (m : Module) (name : String) (t : Term) : Module :=
  { m with scope := { m.scope with names := Table.put m.scope.names name t } }

/-- The bases that a kind of class has where none are written. -/
def defaultBases : Body → List String
  | .model _ => ["BaseModel"]
  | .enumeration _ => ["Enum"]
  | .controller _ => ["Controller"]
  | _ => []

/-- The documentation strings of the fields in a body. -/
def docsOf : Body → Table String
  | .keyed _ true fields => collect fields
  | .fielded fields => collect fields
  | .model fields => collect fields
  | _ => []
where
  /-- The documentation strings of fields, cleaned. -/
  collect (fields : List FieldStatement) : Table String :=
    Table.ofList (fields.filterMap fun f => f.doc.map fun doc => (f.name, Docstring.cleaned doc))

/-- Whether a body is written as one, so that documentation strings are looked for in it. -/
def hasText : Body → Bool
  | .keyed _ hasDocs _ => hasDocs
  | .synonym _ => false
  | _ => true

/-- A module with the documentation strings of one more definition. -/
def addDocs (m : Module) (st : Statement) : Module :=
  if hasText st.body && !Table.has m.docs st.name then
    { m with docs := Table.put m.docs st.name (docsOf st.body) }
  else m

/-- A module with one more class, bound to its name. -/
def addClass (m : Module) (name : String) (lineage : Lineage) (form : Form)
    (members : Table Constant) : Module :=
  let c := m.classes.length
  bind
    { m with
      classes := m.classes ++ [⟨name, lineage, form⟩]
      scope := { m.scope with members := (c, members) :: m.scope.members } }
    name (.declared c)

/-- A module with the class of a definition. -/
def defineClass (m : Module) (st : Statement) : Except SourceError Module := do
  let c : ClassId := m.classes.length
  let bases ← (st.bases.getD (defaultBases st.body)).mapM (ancestorOf m.scope)
  let lineage : Except SourceError Lineage := lineageOf c bases (bases.map m.lineage)
  let ancestors (l : Lineage) : List Form := m.forms (l.drop 1)
  match st.body with
  | .keyed isTotal _ fields =>
      let fields ← typeFields m.scope fields
      let form ← keyedForm m (bases.filter fun b => b matches .declared _) isTotal fields
      return m.addClass st.name [.declared c] form []
  | .fielded fields =>
      let fields ← typeFields m.scope fields
      let l ← lineage
      return m.addClass st.name l (← fieldedForm (ancestors l) fields) []
  | .model fields =>
      let fields ← typeFields m.scope fields
      let l ← lineage
      let inside := (m.bind st.name (.declared c)).scope
      return m.addClass st.name l (← modelForm inside (m.forms bases) (ancestors l) fields) []
  | .enumeration entries =>
      let l ← lineage
      let kind := MemberKind.ofLineage l
      if (ancestors l).any fun form => form matches .enumeration (_ :: _) then throw .mismatch
      let ms ← membersOf kind entries
      return m.addClass st.name l (.enumeration (enumerationValues (isFlagSet l) ms))
        (memberConstants c st.name kind ms)
  | .plain => return m.addClass st.name (← lineage) .plain []
  | .controller actions =>
      let actions ← actions.mapM (evaluateAction m.scope)
      return m.addClass st.name (← lineage)
        (.controller (Table.ofList (actions.map fun a => (a.name, a)))) []
  | .synonym h => return m.bind st.name (← h.evaluate m.scope)

/-- A module with one more definition. -/
def define (m : Module) (st : Statement) : Except SourceError Module :=
  (m.addDocs st).defineClass st

/-- The module of a document. -/
def ofDocument (name : String) (d : ModuleDocument) : Except SourceError Module :=
  d.statements.foldlM define (blank name)

/-! ## Fields of records -/

/-- A field as a contract has it, its hint resolved as far as it can be. -/
structure Field where
  name : String
  hint : Term
  isOptional : Bool
  keywords : Table Json

/-- Hints with their names resolved in the whole module, if all of them can be. -/
def resolveHints (m : Module) (hints : Table Term) : Option (Table Term) :=
  (hints.mapM fun h => (m.scope.resolve true h.2).map fun t => (h.1, t)).toOption

/-- The hints in the bodies of a lineage, the nearest counting; every one of them has to be
resolved, also one that a nearer class replaces. -/
def resolveLineage (m : Module) (l : Lineage) : Option (Table Term) := do
  let each ← (m.forms l).reverse.mapM fun form =>
    match form with
    | .fielded hints _ _ => m.resolveHints hints
    | _ => some []
  return each.foldl Table.putAll []

/-- The fields of a class. When a hint of a keyed or fielded record cannot be resolved, all of its
hints stay as they are. -/
def fieldsOf (m : Module) (c : Class) : List Field :=
  match c.form with
  | .keyed keys =>
      let hints := Table.mapValues Key.hint keys
      let resolved := (m.resolveHints hints).getD hints
      keys.map fun k =>
        ⟨k.1, (Table.get? resolved k.1).getD k.2.hint, !k.2.isRequired, []⟩
  | .fielded hints _ slots =>
      let resolved := (m.resolveLineage c.lineage).getD hints
      slots.filterMap fun f => f.2.map fun slot =>
        ⟨slot.shownName, (Table.get? resolved f.1).getD slot.hint, slot.isOptional, slot.keywords⟩
  | .model _ slots =>
      slots.map fun f => ⟨f.2.shownName, f.2.hint, f.2.isOptional, f.2.keywords⟩
  | _ => []

/-- The documentation string of a field of a class. -/
def docOf? (m : Module) (c : Class) (field : String) : Option String :=
  (Table.get? m.docs c.name).bind (Table.get? · field)

end Module

end RouteContract.Sources
