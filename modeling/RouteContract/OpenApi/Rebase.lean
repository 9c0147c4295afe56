import RouteContract.Json.Basic
import RouteContract.Pointer

/-!
# References that move with their schema

A schema refers to its own parts by pointers that start at the schema. Inside a document such a
pointer has to start at the document. The schemas of a document stand under the key `schema`; the
outermost such key on the way to a reference is the root that the reference is written against.
-/

namespace RouteContract.OpenApi

set_option autoImplicit false

open RouteContract

/-- Where the schema begins that a reference is written against, if the way there has passed one. -/
abbrev SchemaRoot := Option (List String)

/-- The root for what stands under a key at a path: the outermost one counts. -/
def SchemaRoot.enter (root : SchemaRoot) (path : List String) (key : String) : SchemaRoot :=
  match root with
  | some r => some r
  | none => if key = "schema" then some (path ++ [key]) else none

/-- The text of a reference against the document, when the reference is a local one and stands
inside a schema. -/
def rebasedReference? (root : SchemaRoot) (key : String) (value : Json) : Option String :=
  match root, value with
  | some r, .str text =>
      match text.toList with
      | '#' :: rest =>
          if key = "$ref" then some (Pointer.fragment r ++ String.ofList rest) else none
      | _ => none
  | _, _ => none

mutual
/-- A value at a path of a document, with the local references inside schemas written against the
document. -/
def rebase (root : SchemaRoot) (path : List String) : Json → Json
  | .arr items => .arr (rebaseItems root path 0 items)
  | .obj members => .obj (rebaseMembers root path members)
  | .null => .null
  | .bool b => .bool b
  | .int i => .int i
  | .float x => .float x
  | .str s => .str s

/-- The items of an array from a position on. -/
def rebaseItems (root : SchemaRoot) (path : List String) (position : Nat) : List Json → List Json
  | [] => []
  | item :: rest =>
      rebase root (path ++ [toString position]) item :: rebaseItems root path (position + 1) rest

/-- The members of an object. -/
def rebaseMembers (root : SchemaRoot) (path : List String) :
    List (String × Json) → List (String × Json)
  | [] => []
  | (key, value) :: rest =>
      (key,
          match rebasedReference? root key value with
          | some text => .str text
          | none => rebase (root.enter path key) (path ++ [key]) value) ::
        rebaseMembers root path rest
end

end RouteContract.OpenApi
