import RouteContract.Shape.Graph

/-!
# Type graphs as documents

A type graph is written down as a JSON document for each type. The member `k` names the shape, the
other members hold its parts, and a part of the shape `ref` names one of the shared types by which
cycles are made. Every other part is a type of its own.
-/

namespace RouteContract.Shape

set_option autoImplicit false

open RouteContract

namespace Document

/-- A text member of a document, or a default. -/
def text (d : Json) (name default : String) : String :=
  ((d.member? name).bind Json.text?).getD default

/-- The items of an array member of a document. -/
def list (d : Json) (name : String) : List Json := ((d.member? name).bind Json.items?).getD []

/-- A member of a document that is not null. -/
def part? (d : Json) (name : String) : Option Json :=
  match d.member? name with
  | some .null => none
  | found => found

/-- The integer at a position of an array, or zero. -/
def integerAt (items : List Json) (position : Nat) : Int :=
  match items[position]? with
  | some (.int i) => i
  | _ => 0

/-- The source of a document. -/
def source (d : Json) : Option Source :=
  match list d "source" with
  | .str file :: rest => some ⟨file, integerAt rest 0, integerAt rest 1⟩
  | _ => none

/-- The scalar kind of a document. -/
def kind (d : Json) : ScalarKind := (ScalarKind.ofName? (text d "kind" "")).getD .string

/-- The shared types by name. -/
abbrev Shared := Table TypeId

mutual
/-- The type of a document, added to a graph unless it is a shared one. -/
def addType (shared : Shared) : Nat → Json → Graph → TypeId × Graph
  | 0, _, g => (g.size, g.push ⟨.bare, none⟩)
  | fuel + 1, d, g =>
      if text d "k" "" = "ref" then ((Table.get? shared (text d "to" "")).getD g.size, g)
      else
        let (shape, g) := addParts shared fuel d g
        (g.size, g.push ⟨shape, source d⟩)

/-- The shape of a document, its parts added to a graph. -/
def addParts (shared : Shared) : Nat → Json → Graph → TypeShape × Graph
  | 0, _, g => (.bare, g)
  | fuel + 1, d, g =>
      let k := text d "k" ""
      if k = "primitive" then (.scalar (kind d), g)
      else if k = "literal" then (.literal (kind d) ((d.member? "value").getD .null), g)
      else if k = "array" then
        let (element, g) := addType shared fuel ((d.member? "element").getD .null) g
        (.array element, g)
      else if k = "tuple" then
        let (elements, g) := addTypes shared fuel (list d "elements") g
        (.tuple elements, g)
      else if k = "union" then
        let (members, g) := addTypes shared fuel (list d "members") g
        (.union members, g)
      else if k = "intersection" then
        let (members, g) := addTypes shared fuel (list d "members") g
        (.intersection members, g)
      else if k = "object" then
        let (properties, g) := addProperties shared fuel (list d "properties") g
        let name := text d "name" ""
        match part? d "index" with
        | none => (.object properties none name, g)
        | some value =>
            let (index, g) := addType shared fuel value g
            (.object properties (some index) name, g)
      else if k = "enum" then (.enumeration (list d "values") (text d "name" ""), g)
      else if k = "null" then (.null, g)
      else if k = "any" then (.any, g)
      else if k = "opaque" then (.undescribed (text d "name" "unknown"), g)
      else (.bare, g)

/-- The types of several documents. -/
def addTypes (shared : Shared) : Nat → List Json → Graph → List TypeId × Graph
  | 0, _, g => ([], g)
  | _ + 1, [], g => ([], g)
  | fuel + 1, d :: rest, g =>
      let (t, g) := addType shared fuel d g
      let (more, g) := addTypes shared fuel rest g
      (t :: more, g)

/-- The properties of several documents. -/
def addProperties (shared : Shared) : Nat → List Json → Graph → List Property × Graph
  | 0, _, g => ([], g)
  | _ + 1, [], g => ([], g)
  | fuel + 1, d :: rest, g =>
      let (t, g) := addType shared fuel ((d.member? "type").getD .null) g
      let isOptional := ((d.member? "optional").getD (.bool false)).isVoid
      let annotations := ((d.member? "annotations").bind Json.members?).getD []
      let (more, g) := addProperties shared fuel rest g
      (⟨text d "name" "", t, !isOptional, annotations⟩ :: more, g)
end

/-- Steps enough to read a document. -/
def depth (d : Json) : Nat := 2 * d.weight + 2

/-- The shared type that a name stands for, past names that only stand for another one. -/
def target (documents : Table Json) : Nat → String → String
  | 0, name => name
  | fuel + 1, name =>
      match Table.get? documents name with
      | some d => if text d "k" "" = "ref" then target documents fuel (text d "to" "") else name
      | none => name

/-- The numbers of shared types, in the order of their documents. -/
def number (documents : Table Json) : Shared :=
  let names := Table.keys documents
  documents.map fun entry =>
    (entry.1, names.idxOf (target documents documents.length entry.1))

/-- A graph of shared types, and their numbers. -/
def shared (documents : Table Json) : Shared × Graph :=
  let numbers := number documents
  let start : Graph := ⟨(documents.map fun _ => (⟨.bare, none⟩ : Node)).toArray⟩
  let filled :=
    documents.zipIdx.foldl
      (fun g entry =>
        let d := entry.1.2
        let (shape, g) := addParts numbers (depth d) d g
        g.set entry.2 ⟨shape, source d⟩)
      start
  (numbers, filled)

/-- The type of a document in a graph that holds the shared types. -/
def addDocument (numbers : Shared) (g : Graph) (d : Json) : TypeId × Graph :=
  addType numbers (depth d) d g

end Document

end RouteContract.Shape
