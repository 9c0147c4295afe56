import RouteContract.Json.Display

/-!
# Type graphs

The types that a contract is compiled from. A type is a node of a finite graph and is told from
other types by its number in it, not by its contents: a recursive type is a cycle, and one node that
is reached twice is the same type twice. A number without a node stands for a type that cannot be
described.
-/

namespace RouteContract.Shape

set_option autoImplicit false

open RouteContract

/-- A type is named by its number in a graph. -/
abbrev TypeId := Nat

/-- The kinds of scalar values. -/
inductive ScalarKind where
  | number
  | string
  | boolean
deriving Repr, DecidableEq

/-- The name of a kind in a schema. -/
def ScalarKind.name : ScalarKind → String
  | .number => "number"
  | .string => "string"
  | .boolean => "boolean"

/-- The kind of a name. -/
def ScalarKind.ofName? (name : String) : Option ScalarKind :=
  if name = "number" then some .number
  else if name = "string" then some .string
  else if name = "boolean" then some .boolean
  else none

/-- A declared member of an object type. -/
structure Property where
  name : String
  type : TypeId
  isOptional : Bool
  /-- What the declaration says beyond the type, in terms of schema keywords. -/
  annotations : Table Json

/-- What a type is. -/
inductive TypeShape where
  | scalar (kind : ScalarKind)
  | literal (kind : ScalarKind) (value : Json)
  | array (element : TypeId)
  | tuple (elements : List TypeId)
  | object (properties : List Property) (index : Option TypeId) (name : String)
  | union (members : List TypeId)
  | intersection (members : List TypeId)
  | enumeration (values : List Json) (name : String)
  | null
  | any
  /-- A type that could not be described. -/
  | undescribed (name : String)
  /-- A type about which nothing is known. -/
  | bare

/-- Where a type was declared. -/
structure Source where
  file : String
  line : Int
  column : Int
deriving Repr, DecidableEq

/-- A source as a message shows it. -/
def Source.display (s : Source) : String :=
  s.file ++ ":" ++ (Json.int s.line).display ++ ":" ++ (Json.int s.column).display

/-- A node of a type graph. -/
structure Node where
  shape : TypeShape
  source : Option Source

/-- A finite graph of types. -/
structure Graph where
  nodes : Array Node

namespace Graph

/-- The graph without types. -/
def empty : Graph := ⟨#[]⟩

/-- The node of a type. -/
def node (g : Graph) (t : TypeId) : Node := (g.nodes[t]?).getD ⟨.bare, none⟩

/-- What a type is. -/
def shape (g : Graph) (t : TypeId) : TypeShape := (g.node t).shape

/-- The number of types. -/
def size (g : Graph) : Nat := g.nodes.size

/-- Add a type; its number is the size before. -/
def push (g : Graph) (n : Node) : Graph := ⟨g.nodes.push n⟩

/-- Replace the node of a type. -/
def set (g : Graph) (t : TypeId) (n : Node) : Graph := ⟨g.nodes.setIfInBounds t n⟩

/-- Whether a type is an object type. -/
def isObject (g : Graph) (t : TypeId) : Bool :=
  match g.shape t with
  | .object _ _ _ => true
  | _ => false

/-- Every object type has a node. -/
theorem lt_size_of_isObject {g : Graph} {t : TypeId} (h : g.isObject t = true) : t < g.size := by
  unfold isObject shape node at h
  rw [size]
  by_cases hlt : t < g.nodes.size
  · exact hlt
  · rw [Array.getElem?_eq_none (Nat.le_of_not_lt hlt)] at h
    simp at h

/-- How a message calls a type. -/
def label (g : Graph) (t : TypeId) : String :=
  match g.shape t with
  | .scalar kind => kind.name
  | .literal _ value => value.display
  | .array _ => "ArrayDescriptor"
  | .tuple _ => "TupleDescriptor"
  | .object _ _ name => if name.isEmpty then "object" else name
  | .union _ => "UnionDescriptor"
  | .intersection _ => "IntersectionDescriptor"
  | .enumeration _ name => if name.isEmpty then "enum" else name
  | .null => "NullDescriptor"
  | .any => "AnyDescriptor"
  | .undescribed name => name
  | .bare => "TypeDescriptor"

end Graph

end RouteContract.Shape
