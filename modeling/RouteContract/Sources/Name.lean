import RouteContract.Shape.Graph
import RouteContract.Text.Blank

/-!
# General names

The names of types that mean the same in every module. Some of them are described: the scalar types,
the collections of one type, tuples, and mappings. The others are known, so that a hint may mention
them, and stay undescribed; a message calls them by the last part of their name.
-/

namespace RouteContract.Sources

set_option autoImplicit false

open RouteContract

/-- What a general name is to a contract. -/
inductive Standing where
  | scalar (kind : Shape.ScalarKind)
  /-- Any value at all. -/
  | any
  /-- Many values of one type. -/
  | collection
  /-- A fixed number of values. -/
  | tuple
  /-- Values of one type by name. -/
  | mapping
  | undescribed
deriving Repr, DecidableEq

/-- The collections of one type. -/
def collectionNames : List String :=
  ["list", "set", "frozenset", "collections.abc.Sequence", "collections.abc.MutableSequence",
    "collections.abc.Set", "collections.abc.MutableSet", "collections.abc.Iterable",
    "collections.abc.Collection", "typing.List", "typing.Set", "typing.FrozenSet",
    "typing.Sequence", "typing.MutableSequence", "typing.AbstractSet", "typing.MutableSet",
    "typing.Iterable", "typing.Collection"]

/-- The mappings. -/
def mappingNames : List String :=
  ["dict", "collections.abc.Mapping", "collections.abc.MutableMapping", "typing.Dict",
    "typing.Mapping", "typing.MutableMapping"]

/-- What a general name is to a contract. -/
def standing (name : String) : Standing :=
  if name = "int" || name = "float" then .scalar .number
  else if name = "str" then .scalar .string
  else if name = "bool" then .scalar .boolean
  else if name = "Any" || name = "object" then .any
  else if name = "tuple" || name = "typing.Tuple" then .tuple
  else if collectionNames.contains name then .collection
  else if mappingNames.contains name then .mapping
  else .undescribed

/-! ## Known names -/

/-- The name under which a type of two names is known. -/
def canonicalName (name : String) : String :=
  if name = "typing.Any" then "Any" else if name = "typing.Text" then "str" else name

/-- The general names of one part. -/
def simpleNames : List String :=
  ["int", "float", "str", "bool", "Any", "object", "list", "set", "frozenset", "tuple", "dict",
    "complex", "bytes", "bytearray", "memoryview", "range", "slice", "type", "Never", "T",
    "Exception", "BaseException", "Enum", "IntEnum", "StrEnum", "Flag", "IntFlag", "Controller",
    "Request", "BaseModel"]

/-- The modules whose names are known everywhere. -/
def knownModules : List String := ["typing", "collections", "datetime", "enum", "dataclasses"]

/-- The parts of a name between its dots. -/
def nameParts (name : String) : List String := (Text.splitAt '.' name.toList).map String.ofList

/-- Whether a name is a general one. -/
def isGeneral (name : String) : Bool :=
  match nameParts name with
  | [] => false
  | [simple] => simpleNames.contains simple
  | first :: _ => knownModules.contains first

/-- What a message calls a general name: its last part. -/
def callName (name : String) : String := (nameParts name).getLast?.getD name

/-- Whether a name is one of the building blocks of hints. All others are types of values. -/
def isBuildingBlock (name : String) : Bool :=
  name = "T" || name = "Never" || name = "Request" || (nameParts name).head? == some "typing"

/-- Building blocks that mean nothing without an argument. -/
def isIncomplete (name : String) : Bool :=
  ["typing.Union", "typing.Optional", "typing.ClassVar", "typing.Final", "typing.Literal",
    "typing.Concatenate", "typing.TypeGuard", "typing.Required", "typing.NotRequired",
    "typing.Unpack", "typing.Generic", "typing.Protocol"].contains name

/-- Marks on a field that are no part of its type. -/
def isFieldMark (name : String) : Bool := name = "typing.ClassVar" || name = "typing.Final"

end RouteContract.Sources
