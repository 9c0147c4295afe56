import RouteContract.Shape.Graph

/-!
# Outlines of types

An outline shows the whole of a type as a document. Object types are numbered as they are met, and
one that is met again is shown by its number alone, so that the outline of a cycle ends.
-/

namespace RouteContract.Shape

set_option autoImplicit false

open RouteContract

/-- The object types of a graph that were met, with their numbers, and the next number. -/
structure Outline where
  met : List (TypeId × Nat)
  next : Nat

namespace Outline

/-- Nothing met. -/
def start : Outline := ⟨[], 0⟩

/-- Go on to another graph, with the numbers going on. -/
def renew (o : Outline) : Outline := { o with met := [] }

/-- The number of an object type that was met. -/
def number? (o : Outline) (t : TypeId) : Option Nat :=
  (o.met.find? fun e => e.1 == t).map Prod.snd

/-- An outline in which one more object type is met. -/
def meet (o : Outline) (t : TypeId) : Outline := ⟨(t, o.next) :: o.met, o.next + 1⟩

/-- An outline of a kind with more members. -/
def labelled (kind : String) (members : Table Json) : Json := .obj (("k", .str kind) :: members)

mutual
/-- The outline of a type, of at most a depth. -/
def ofType (g : Graph) : Nat → TypeId → Outline → Json × Outline
  | 0, _, o => (.null, o)
  | depth + 1, t, o =>
      match g.shape t with
      | .scalar kind => (labelled "primitive" [("kind", .str kind.name)], o)
      | .literal kind value =>
          (labelled "literal" [("kind", .str kind.name), ("value", value)], o)
      | .array element =>
          let (v, o) := ofType g depth element o
          (labelled "array" [("element", v)], o)
      | .tuple elements =>
          let (vs, o) := ofTypes g depth elements o
          (labelled "tuple" [("elements", .arr vs)], o)
      | .union members =>
          let (vs, o) := ofTypes g depth members o
          (labelled "union" [("members", .arr vs)], o)
      | .intersection members =>
          let (vs, o) := ofTypes g depth members o
          (labelled "intersection" [("members", .arr vs)], o)
      | .enumeration values name =>
          (labelled "enum" [("name", .str name), ("values", .arr values)], o)
      | .null => (labelled "null" [], o)
      | .any => (labelled "any" [], o)
      | .undescribed name => (labelled "opaque" [("name", .str name)], o)
      | .bare => (labelled "base" [], o)
      | .object properties index name =>
          match o.number? t with
          | some n => (labelled "seen" [("id", .int n)], o)
          | none =>
              let n := o.next
              let (vs, o) := ofProperties g depth properties (o.meet t)
              let (i, o) :=
                match index with
                | none => (Json.null, o)
                | some value => ofType g depth value o
              (labelled "object"
                [("id", .int n), ("name", .str name), ("properties", .arr vs), ("index", i)], o)

/-- The outlines of several types. -/
def ofTypes (g : Graph) : Nat → List TypeId → Outline → List Json × Outline
  | 0, _, o => ([], o)
  | _ + 1, [], o => ([], o)
  | depth + 1, t :: rest, o =>
      let (v, o) := ofType g depth t o
      let (vs, o) := ofTypes g depth rest o
      (v :: vs, o)

/-- The outlines of several properties. -/
def ofProperties (g : Graph) : Nat → List Property → Outline → List Json × Outline
  | 0, _, o => ([], o)
  | _ + 1, [], o => ([], o)
  | depth + 1, p :: rest, o =>
      let (v, o) := ofType g depth p.type o
      let (vs, o) := ofProperties g depth rest o
      (.obj
        [("name", .str p.name), ("type", v), ("optional", .bool p.isOptional),
          ("annotations", .obj p.annotations)] :: vs, o)
end

/-- The length of the longest list of parts of one type of a graph. -/
def breadth (g : Graph) : Nat :=
  g.nodes.foldl
    (fun n node => max n (match node.shape with
      | .tuple ts => ts.length
      | .union ts => ts.length
      | .intersection ts => ts.length
      | .object ps _ _ => ps.length
      | _ => 0))
    0

/-- The outline of a type of a graph in which every cycle passes through an object type. No type is
met twice on a way down, so that its length is bounded by the number of types and the breadth of
each. -/
def ofGraph (g : Graph) (t : TypeId) (o : Outline) : Json × Outline :=
  ofType g ((g.size + 1) * (breadth g + 2) + 1) t o

end Outline

end RouteContract.Shape
