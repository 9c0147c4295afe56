import RouteContract.Documentation
import RouteContract.Sources.Module

/-!
# Describing terms

Describing a term adds its type to a graph. Every record of a module has one object type, however
often it is met: the type is there, without properties, before the fields of the record are walked,
so that a field that leads back to the record finds it. What has been described so far stays when a
description fails.
-/

namespace RouteContract.Sources

set_option autoImplicit false

open RouteContract Shape

/-- The types described so far, and the object types of records. -/
structure Description where
  types : Graph
  objects : List (ClassId × TypeId)

namespace Description

/-- Nothing described. -/
def empty : Description := ⟨.empty, []⟩

/-- The object type of a record. -/
def object? (d : Description) (c : ClassId) : Option TypeId :=
  (d.objects.find? fun e => e.1 == c).map Prod.snd

/-- A description with one more type, which gets the number of types before. -/
def push (d : Description) (s : TypeShape) : Description := { d with types := d.types.push ⟨s, none⟩ }

/-- A description with an object type for a record, without properties. -/
def register (d : Description) (c : ClassId) (name : String) : Description :=
  { d.push (.object [] none name) with objects := (c, d.types.size) :: d.objects }

/-- A description in which an object type has one more property. -/
def addProperty (d : Description) (t : TypeId) (p : Property) : Description :=
  match d.types.shape t with
  | .object properties index name =>
      { d with types := d.types.set t ⟨.object (properties ++ [p]) index name, none⟩ }
  | _ => d

end Description

/-- What describing does: it adds to what is described, and may fail. -/
abbrev Describing (α : Type) := ExceptT SourceError (StateM Description) α

/-- Add a type. -/
def addType (s : TypeShape) : Describing TypeId := fun d => (.ok d.types.size, d.push s)

/-- An answer that needs nothing described. -/
def liftResult {α : Type} (r : Except SourceError α) : Describing α := fun d => (r, d)

/-! ## Constants -/

/-- The scalar kind of a constant, and the value that it counts as; nothing when it has none. -/
def Constant.scalar? : Constant → Option (ScalarKind × Json)
  | .value v => kinded v
  | .bytes _ => none
  | .member _ _ plain => plain.bind kinded
where
  /-- A scalar with its kind. -/
  kinded : Json → Option (ScalarKind × Json)
    | .bool b => some (.boolean, .bool b)
    | .int i => some (.number, .int i)
    | .float x => some (.number, .float x)
    | .str s => some (.string, .str s)
    | _ => none

/-- The shape of a constant; nothing when there is none for it. -/
def Constant.shape? : Constant → Option TypeShape
  | .value .null => some .null
  | c => c.scalar?.map fun s => .literal s.1 s.2

/-- Describe a choice. One constant without a shape makes all of it undescribed. -/
def describeChoice (cs : List Constant) : Describing TypeId := do
  match cs.mapM Constant.shape? with
  | none => addType (.undescribed (Term.choice cs).callName)
  | some [s] => addType s
  | some shapes => do addType (.union (← shapes.mapM addType))

/-! ## Terms -/

/-- Describe a general name by itself. -/
def describeGeneral (name : String) : Describing TypeId :=
  match standing name with
  | .scalar kind => addType (.scalar kind)
  | .any => addType .any
  | .collection => do addType (.array (← addType .any))
  | .tuple =>
      if isBuildingBlock name then addType (.tuple []) else do addType (.array (← addType .any))
  | .mapping => do addType (.object [] (some (← addType .any)) "")
  | .undescribed => addType (.undescribed (callName name))

/-- Whether the arguments of a tuple are one type and three dots. -/
def isRepeated : List Term → Bool
  | [_, .dots] => true
  | _ => false

mutual
/-- Describe a term without a demand around it, classes being described in a given way. Remarks are
of no use here. -/
def describeBare (onClass : ClassId → Describing TypeId) : Term → Describing TypeId
  | .nothing => addType .null
  | .general name => describeGeneral name
  | .declared c => onClass c
  | .quoted name => addType (.undescribed (Term.quoted name).callName)
  | .reference name place => addType (.undescribed (Term.reference name place).callName)
  | .dots => addType (.undescribed Term.dots.callName)
  | .applied name arguments =>
      match standing name with
      | .tuple =>
          if isRepeated arguments then do addType (.array (← describeFirst onClass arguments))
          else do addType (.tuple (← describeEach onClass arguments))
      | .collection => do addType (.array (← describeFirst onClass arguments))
      | .mapping => do
          addType (.object [] (some (← describeSecond onClass arguments)) "")
      | _ => addType (.undescribed (callName name))
  | .union _ members => do addType (.union (← describeEach onClass members))
  | .choice constants => describeChoice constants
  | .remarked base _ => describeBare onClass base
  | .demanded isRequired _ =>
      addType (.undescribed (if isRequired then "Required" else "NotRequired"))

/-- Describe several terms. -/
def describeEach (onClass : ClassId → Describing TypeId) : List Term → Describing (List TypeId)
  | [] => pure []
  | .demanded _ base :: rest => do
      let t ← describeBare onClass base
      return t :: (← describeEach onClass rest)
  | term :: rest => do
      let t ← describeBare onClass term
      return t :: (← describeEach onClass rest)

/-- Describe the first of several terms, or any type where there is none. -/
def describeFirst (onClass : ClassId → Describing TypeId) : List Term → Describing TypeId
  | [] => addType .any
  | .demanded _ base :: _ => describeBare onClass base
  | term :: _ => describeBare onClass term

/-- Describe the second of two terms, or any type where there are not two. -/
def describeSecond (onClass : ClassId → Describing TypeId) : List Term → Describing TypeId
  | [_, .demanded _ base] => describeBare onClass base
  | [_, term] => describeBare onClass term
  | _ => addType .any
end

/-- Describe a term, classes being described in a given way. -/
def describeTerm (onClass : ClassId → Describing TypeId) (t : Term) : Describing TypeId :=
  describeBare onClass t.withoutDemand

/-! ## Records -/

/-- What is said about a property: in its documentation, beside its type, and around its type; the
later counts. -/
def annotationsFor (doc : Option String) (keywords : Table Json) (remarks : List Json) :
    Except SourceError (Table Json) :=
  match doc.elim (.ok []) Documentation.annotationsOf with
  | .error .integerTooLong => .error .integerTooLong
  | .ok documented =>
      .ok (Documentation.mergeAnnotations
        [documented, keywords, Documentation.collectAnnotations remarks])

/-- Describe a field of a record and add it to the object type. -/
def describeField (onClass : ClassId → Describing TypeId) (doc : Option String) (t : TypeId)
    (f : Module.Field) : Describing PUnit := do
  let (hint, remarks) := f.hint.withoutDemand.splitRemarks
  let (hint, isNullable) := hint.splitOptional
  let type ← describeBare onClass hint
  let annotations ← liftResult (annotationsFor doc f.keywords remarks)
  modify fun d => d.addProperty t ⟨f.name, type, f.isOptional || isNullable, annotations⟩

/-- Describe a record: its object type if there is one already, or a new one with all fields. -/
def describeRecord (m : Module) (onClass : ClassId → Describing TypeId) (c : ClassId)
    (definition : Class) : Describing TypeId := do
  match (← get).object? c with
  | some t => return t
  | none =>
      let t := (← get).types.size
      modify fun d => d.register c definition.name
      (m.fieldsOf definition).forM fun f =>
        describeField onClass (m.docOf? definition f.name) t f
      return t

/-- Describe a class of a module. Each record that is not described yet takes one of a number of
steps. -/
def describeClass (m : Module) : Nat → ClassId → Describing TypeId
  | 0, _ => addType .bare
  | steps + 1, c =>
      match m.class? c with
      | none => addType .bare
      | some definition =>
          match definition.form with
          | .enumeration values => addType (.enumeration values definition.name)
          | .plain => addType (.undescribed definition.name)
          | .controller _ => addType (.undescribed definition.name)
          | _ => describeRecord m (describeClass m steps) c definition

/-- Describe a term of a module. -/
def Module.describe (m : Module) (t : Term) : Describing TypeId :=
  describeTerm (describeClass m (m.classes.length + 2)) t

end RouteContract.Sources
