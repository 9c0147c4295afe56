import RouteContract.Contract.Declaration
import RouteContract.Sources.Document
import RouteContract.Sources.Docstring
import RouteContract.Sources.Enumeration

/-!
# Classes

What a definition in a module makes. A keyed record knows its fields, those of its bases first, and
which of them have to be there. A fielded record knows its fields with their defaults, and a model
in addition the names under which they are shown. The hints of a keyed or fielded record are looked
at when the whole module is there; those of a model are resolved as far as the module goes when the
model is defined.
-/

namespace RouteContract.Sources

set_option autoImplicit false

open RouteContract

/-- A field of a keyed record. -/
structure Key where
  hint : Term
  isRequired : Bool

/-- A field of a record with defaults. -/
structure Slot where
  /-- The name under which a contract shows the field. -/
  shownName : String
  hint : Term
  isOptional : Bool
  keywords : Table Json
  /-- Whether names in the hint are still to be resolved. -/
  isOpen : Bool

/-- An error that an action is said to raise. -/
structure Raised where
  code : Json
  payload : Term
  description : Json

/-- An action of a controller. -/
structure ActionDefinition where
  name : String
  routes : List DeclaredRoute
  options : Table Json
  raises : List Raised
  parameters : List (String × Option Term)
  returns : Option Term
  doc : Option String

/-- What a class is. -/
inductive Form where
  /-- A keyed record with all its fields. -/
  | keyed (keys : Table Key)
  /-- A fielded record: the hints and the names with a value in its own body, and all its fields,
  among which a name that belongs to the class keeps a place. -/
  | fielded (hints : Table Term) (valued : List String) (slots : Table (Option Slot))
  /-- A model: the names of the fields in its own body, and all its fields. -/
  | model (own : List String) (slots : Table Slot)
  | enumeration (values : List Json)
  | plain
  | controller (actions : Table ActionDefinition)

/-- A class of a module. -/
structure Class where
  name : String
  lineage : Lineage
  form : Form

/-- A module as far as it goes. -/
structure Module where
  name : String
  scope : Scope
  classes : List Class
  /-- The documentation strings of fields, by class name; of two classes of one name the first. -/
  docs : Table (Table String)

namespace Module

/-- A module without classes. -/
def blank (name : String) : Module := ⟨name, ⟨[], []⟩, [], []⟩

/-- A class of a module. -/
def class? (m : Module) (c : ClassId) : Option Class := m.classes[c]?

/-- What the classes of a lineage are, nearest first. -/
def forms (m : Module) (l : Lineage) : List Form :=
  l.filterMap fun a =>
    match a with
    | .declared c => (m.class? c).map Class.form
    | .general _ => none

/-- The lineage of an ancestor. -/
def lineage (m : Module) : Ancestor → Lineage
  | .declared c => ((m.class? c).map Class.lineage).getD [.declared c]
  | .general n => [.general n]

end Module

/-! ## Fields -/

/-- A field with what its hint means. -/
abbrev TypedField := FieldStatement × Term

/-- Fields with what their hints mean. -/
def typeFields (s : Scope) (fields : List FieldStatement) : Except SourceError (List TypedField) :=
  fields.mapM fun f => (f.hint.evaluate s).map fun t => (f, t)

/-- The hints of fields by name. -/
def hintsOf (fields : List TypedField) : Table Term :=
  Table.ofList (fields.map fun f => (f.1.name, f.2))

/-- Whether a hint says that a name belongs to the class and is no field. -/
def isClassMark : Term → Bool
  | .general n => n == "typing.ClassVar"
  | .applied n _ => n == "typing.ClassVar"
  | _ => false

/-- Whether a field has a value of its own. -/
def FieldStatement.isValued (f : FieldStatement) : Bool := f.default.isSome || f.hasFactory

/-- The demand that a hint makes, if it makes one. -/
def demand? : Term → Option Bool
  | .demanded r _ => some r
  | .remarked (.demanded r _) _ => some r
  | _ => none

/-- A field of a keyed record, which has to be there unless its hint or the record says otherwise.
-/
def keyOf (m : Module) (isTotal : Bool) (f : TypedField) : Except SourceError (String × Key) :=
  (f.2.argument (some m.name) false).map fun t => (f.1.name, ⟨t, (demand? t).getD isTotal⟩)

/-- A keyed record with bases. A field that is there more than once is as it was written last. -/
def keyedForm (m : Module) (bases : List Ancestor) (isTotal : Bool) (fields : List TypedField) :
    Except SourceError Form := do
  let own ← fields.mapM (keyOf m isTotal)
  let inherited ← (m.forms bases).mapM fun form =>
    match form with
    | .keyed keys => .ok keys
    | _ => .error .mismatch
  return .keyed (Table.putAll (inherited.foldl Table.putAll []) own)

/-- Whether a default may be changed by those that it is given to. -/
def isChangeable : Json → Bool
  | .arr _ => true
  | .obj _ => true
  | _ => false

/-- The field of a fielded record; nothing when the name belongs to the class. A field without a
value takes the one that an ancestor gives to its name, unless it is spelled out. -/
def fieldedSlot (valued : List String) (f : TypedField) : Except SourceError (Option Slot) :=
  if f.1.default.isSome && f.1.hasFactory then .error .unfitValue
  else if isClassMark f.2 then (if f.1.hasFactory then .error .mismatch else .ok none)
  else if (f.1.default.map isChangeable).getD false then .error .unfitValue
  else
    let isOptional := f.1.isValued || (!f.1.isSpelledOut && valued.contains f.1.name)
    .ok (some ⟨f.1.name, f.2, isOptional, f.1.keywords, true⟩)

/-- Whether every field after one that may be left out may be left out as well. -/
def isOrdered (slots : List Slot) : Bool :=
  (slots.dropWhile fun f => !f.isOptional).all Slot.isOptional

/-- A fielded record with ancestors, nearest first. -/
def fieldedForm (ancestors : List Form) (fields : List TypedField) : Except SourceError Form := do
  let valued := ancestors.flatMap fun form =>
    match form with
    | .fielded _ valued _ => valued
    | _ => []
  let inherited := ancestors.reverse.foldl
    (fun done form =>
      match form with
      | .fielded _ _ slots => Table.putAll done slots
      | _ => done)
    ([] : Table (Option Slot))
  let own ← fields.mapM fun f => (fieldedSlot valued f).map fun slot => (f.1.name, slot)
  let slots := Table.putAll inherited own
  if isOrdered ((Table.values slots).filterMap id) then
    return .fielded (hintsOf fields)
      ((fields.filter fun f => f.1.default.isSome).map fun f => f.1.name) slots
  else .error .mismatch

/-- The field of a model; nothing when the name is not shown. -/
def modelSlot (s : Scope) (f : TypedField) : Except SourceError (Option Slot) :=
  if isClassMark f.2 || f.1.name.startsWith "_" then .ok none
  else if (demand? f.2).isSome then .error .misplacedMark
  else if f.1.default.isSome && f.1.hasFactory then .error .mismatch
  else
    let resolved := s.resolve true f.2
    let hint := ((resolved.toOption.getD f.2).converted none).splitRemarks.1
    let keywords :=
      if f.1.description.isEmpty then f.1.keywords
      else Table.put f.1.keywords "description" (.str f.1.description)
    .ok (some
      ⟨if f.1.shownAs.isEmpty then f.1.name else f.1.shownAs, hint, f.1.isValued, keywords,
        !resolved.isOk⟩)

/-- Fields whose open hints are resolved, if all of them can be. -/
def closeSlots (s : Scope) (slots : Table Slot) : Table Slot :=
  let closed := slots.mapM fun f =>
    if f.2.isOpen then
      (s.resolve true f.2.hint).map fun t =>
        (f.1, { f.2 with hint := t.splitRemarks.1, isOpen := false })
    else .ok f
  closed.toOption.getD slots

/-- A model with bases and ancestors, nearest first. The fields stand in the order in which the
farthest ancestors name them first. -/
def modelForm (s : Scope) (bases ancestors : List Form) (fields : List TypedField) :
    Except SourceError Form := do
  let own ← fields.mapM fun f => (modelSlot s f).map fun slot => slot.map (f.1.name, ·)
  let own := Table.ofList (own.filterMap id)
  let inherited := bases.reverse.foldl
    (fun done form =>
      match form with
      | .model _ slots => Table.putAll done slots
      | _ => done)
    ([] : Table Slot)
  let known := Table.putAll inherited own
  let named := ancestors.reverse.flatMap fun form =>
    match form with
    | .model names _ => names
    | _ => []
  let order := Table.keys (Table.ofList ((named ++ Table.keys own).map fun n => (n, ())))
  let slots := order.filterMap fun n => (Table.get? known n).map fun slot => (n, slot)
  return .model (Table.keys own) (closeSlots s slots)

end RouteContract.Sources
