import RouteContract.Sources.Hint

/-!
# Module documents

A module is written down as a document: its classes in the order of definition, with their fields,
members and actions, and the hints that are to be described by themselves.
-/

namespace RouteContract.Sources

set_option autoImplicit false

open RouteContract

/-- A field of a record as it is written. -/
structure FieldStatement where
  name : String
  hint : Hint
  doc : Option String
  default : Option Json
  hasFactory : Bool
  /-- Whether the field is spelled out, so that it takes no value from elsewhere. -/
  isSpelledOut : Bool
  /-- Schema keywords that the field is given beside its type. -/
  keywords : Table Json
  shownAs : String
  description : String

/-- An error that an action is said to raise. -/
structure RaisedStatement where
  code : Json
  hint : Hint
  description : Json

/-- A route as it is written over an action, with what it says about the action. -/
structure RouteStatement where
  method : String
  path : String
  options : Table Json
  raises : Option (List RaisedStatement)

/-- A parameter of an action. -/
structure ParameterStatement where
  name : String
  hint : Option Hint

/-- An action as it is written. -/
structure ActionStatement where
  name : String
  routes : List RouteStatement
  parameters : List ParameterStatement
  returns : Option Hint
  doc : Option String

/-- What a definition in a module defines. -/
inductive Body where
  /-- A record of keys, each of which has to be there unless the record is partial. -/
  | keyed (isTotal : Bool) (hasDocs : Bool) (fields : List FieldStatement)
  /-- A record of fields with or without defaults. -/
  | fielded (fields : List FieldStatement)
  /-- A record that checks its fields by itself. -/
  | model (fields : List FieldStatement)
  | enumeration (members : List (String × Json))
  | plain
  /-- Another name for a type. -/
  | synonym (h : Hint)
  | controller (actions : List ActionStatement)

/-- A definition in a module. -/
structure Statement where
  name : String
  bases : Option (List String)
  body : Body

/-- A module as it is written. -/
structure ModuleDocument where
  statements : List Statement
  targets : List Hint

/-! ## Reading -/

namespace ModuleDocument

/-- A member that may be missing or null. -/
def optional? (d : Json) (name : String) : Option Json :=
  match d.member? name with
  | some .null => none
  | found => found

/-- A member that has to be there. -/
def required (d : Json) (name : String) : Except FormError Json :=
  match d.member? name with
  | some v => .ok v
  | none => .error .unknownForm

/-- A text member that may be missing. -/
def text? (d : Json) (name : String) : Option String := (optional? d name).bind Json.text?

/-- A text member that has to be there. -/
def text (d : Json) (name : String) : Except FormError String := do textOf (← required d name)

/-- The items of an array member that may be missing. -/
def items (d : Json) (name : String) : List Json := ((optional? d name).bind Json.items?).getD []

/-- The members of an object member that may be missing. -/
def members (d : Json) (name : String) : Table Json :=
  ((optional? d name).bind Json.members?).getD []

/-- A hint that may be missing. -/
def hint? (d : Json) (name : String) : Except FormError (Option Hint) :=
  match d.member? name with
  | none => .ok none
  | some h => (Hint.read h).map some

/-- A field of a document. -/
def field (d : Json) : Except FormError FieldStatement := do
  let hint ← Hint.read (← required d "type")
  return {
    name := ← text d "name", hint := hint, doc := text? d "doc", default := d.member? "default",
    hasFactory := (optional? d "factory").isSome, isSpelledOut := (optional? d "meta").isSome,
    keywords :=
      match optional? d "extra" with
      | some (.obj keywords) => keywords
      | _ => members ((d.member? "meta").getD .null) "schema",
    shownAs := (text? d "alias").getD "", description := (text? d "description").getD "" }

/-- A raised error of a document. -/
def raised (d : Json) : Except FormError RaisedStatement := do
  let hint ← hint? d "type"
  return ⟨← required d "code", hint.getD .nothing, (d.member? "description").getD .null⟩

/-- A route of a document. It is written with the name of a method, or under one. -/
def route (d : Json) : Except FormError RouteStatement := do
  let method ← match text? d "verb" with
    | some verb => pure verb
    | none => text d "method"
  let options := members d "options"
  let raises ← match Table.get? options "raises" with
    | some (.arr items) => (items.mapM raised).map some
    | _ => pure none
  return ⟨method, ← text d "path", options, raises⟩

/-- A parameter of a document. -/
def parameter (d : Json) : Except FormError ParameterStatement := do
  return ⟨← text d "name", ← hint? d "type"⟩

/-- An action of a document. -/
def action (d : Json) : Except FormError ActionStatement := do
  return {
    name := ← text d "name", routes := ← (items d "decorators").mapM route,
    parameters := ← (items d "params").mapM parameter, returns := ← hint? d "returns",
    doc := text? d "doc" }

/-- A member of an enumeration. -/
def enumerationMember : Json → Except FormError (String × Json)
  | .arr [.str name, v] => .ok (name, v)
  | _ => .error .unknownForm

/-- A definition of a document. -/
def statement (d : Json) : Except FormError Statement := do
  let kind ← text d "kind"
  let name ← text d "name"
  let fields := (items d "fields").mapM field
  let isTotal := !((d.member? "total").getD (.bool true)).isVoid
  let body ←
    if kind = "typeddict" then fields.map (Body.keyed isTotal true)
    else if kind = "typeddict_call" then fields.map (Body.keyed isTotal false)
    else if kind = "dataclass" then fields.map Body.fielded
    else if kind = "pydantic" then fields.map Body.model
    else if kind = "enum" then ((items d "members").mapM enumerationMember).map Body.enumeration
    else if kind = "plain" then .ok .plain
    else if kind = "alias" then do pure (Body.synonym (← Hint.read (← required d "type")))
    else if kind = "controller" then ((items d "actions").mapM action).map Body.controller
    else .error .unknownForm
  return ⟨name, (optional? d "bases").map fun _ => (items d "bases").filterMap Json.text?, body⟩

/-- The module of a document. -/
def read (d : Json) : Except FormError ModuleDocument := do
  return ⟨← (items d "classes").mapM statement, ← (items d "targets").mapM Hint.read⟩

end ModuleDocument

end RouteContract.Sources
