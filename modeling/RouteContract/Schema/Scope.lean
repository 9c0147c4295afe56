import RouteContract.Schema.Dialect

/-!
# Looking references up

A scope is a schema document together with the address it is known by. Main definition:
`Scope.lookup`, which finds the schema that a reference names and the base address that holds inside
it. The documents that describe the dialects themselves are in no scope.
-/

namespace RouteContract.Schema

set_option autoImplicit false

/-- A schema document at an address. -/
structure Scope where
  root : Json
  address : String

/-! ## Following a pointer -/

/-- A step of a pointer as it was taken: by a key, or by an index. -/
abbrev Trail := List (Option String)

/-- Whether a trail from one schema leads to a subschema of it. -/
def Trail.namesSubschema (isTable : Bool) : Trail → Bool
  | [] => true
  | none :: _ => false
  | some key :: rest =>
      if (key = "items" || key = "dependencies") && isTable then true
      else if schemaKeywords.contains key then Trail.namesSubschema isTable rest
      else if listKeywords.contains key || tableKeywords.contains key then
        match rest with
        | [] => false
        | _ :: more => Trail.namesSubschema isTable more
      else false

/-- The element at an index, counted from the end when negative. -/
def elementAt? {α : Type} (xs : List α) (i : Int) : Option α :=
  if 0 ≤ i then xs[i.toNat]?
  else if (-i).toNat ≤ xs.length then xs[xs.length - (-i).toNat]? else none

/-- The part of a value that one segment of a pointer names, and the step that was taken. -/
def stepInto (value : Json) (segment : List Char) : Except Fault (Json × Option String) :=
  let element := fun (xs : List Json) =>
    match Number.readInteger segment with
    | .error _ => Except.error Fault.badNumeral
    | .ok i =>
        match elementAt? xs i with
        | some x => .ok (x, none)
        | none => .error .unresolvable
  match value with
  | .arr items => element items
  | .str s => element (s.toList.map fun c => Json.str (String.ofList [c]))
  | .obj members =>
      let key := String.ofList (Pointer.unescape segment)
      match Table.get? members key with
      | some v => .ok (v, some key)
      | none => .error .unresolvable
  | _ => .error .wrongKind

/-- Whether a value is an object. -/
def isTable : Json → Bool
  | .obj _ => true
  | _ => false

/-- Follow the segments of a pointer, with the base address so far and the steps since it changed.
-/
def followSegments (value : Json) (base : String) (trail : Trail) :
    List (List Char) → Except Fault (Json × String)
  | [] => .ok (value, base)
  | segment :: rest =>
      match stepInto value segment with
      | .error e => .error e
      | .ok (part, taken) =>
          let trail := trail ++ [taken]
          if trail.namesSubschema (isTable part) then
            match ownAddress? part with
            | .error e => .error e
            | .ok none => followSegments part base trail rest
            | .ok (some address) => followSegments part (joinUri base address) [] rest
          else followSegments part base trail rest

/-- Follow a pointer, its slash in front and its percent escapes included. -/
def followPointer (document : Json) (base : String) (pointer : List Char) :
    Except Fault (Json × String) :=
  followSegments document base [] (Text.splitAt '/' (Pointer.percentDecode (pointer.drop 1)))

/-! ## Looking up -/

namespace Scope

/-- All documents and anchors in a scope. -/
def index (s : Scope) : Except Fault Index := Index.ofSchema s.address s.root

/-- The document at an address. -/
def document (s : Scope) (address : String) : Except Fault Json :=
  if address = s.address then .ok s.root
  else
    match s.index with
    | .error e => .error e
    | .ok index =>
        match index.documents.reverse.find? (·.1 == address) with
        | some found => .ok found.2
        | none => .error .unresolvable

/-- The schema with an anchor in the document at an address. -/
def anchor (s : Scope) (address name : String) : Except Fault Json :=
  match s.document address with
  | .error e => .error e
  | .ok document =>
      match s.index, ownAddress? document with
      | .error e, _ => .error e
      | _, .error e => .error e
      | .ok index, .ok own =>
          let named := fun (at_ : String) =>
            index.anchors.reverse.find? fun a => a.1 == at_ && a.2.1 == name
          match named address, own.bind named with
          | some found, _ => .ok found.2.2
          | none, some found => .ok found.2.2
          | none, none => .error .unresolvable

/-- The schema that a reference names, seen from a base address, and the base address inside it. -/
def lookup (s : Scope) (base ref : String) : Except Fault (Json × String) :=
  let (address, fragment) : String × List Char :=
    match ref.toList with
    | '#' :: rest => (base, rest)
    | chars =>
        let (front, rest) := Uri.cutAt '#' (Uri.joinChars base.toList chars)
        (String.ofList front, rest)
  match fragment with
  | [] => (s.document address).map (·, address)
  | '/' :: _ =>
      match s.document address with
      | .error e => .error e
      | .ok document => followPointer document address fragment
  | name => (s.anchor address (String.ofList name)).map (·, address)

end Scope

/-! ## A bound on chains of references -/

/-- Keywords that lead to another schema. -/
def referenceKeywords : List String := ["$ref", "$dynamicRef", "$recursiveRef"]

mutual
/-- The number of references in a schema document, and of addresses its parts give themselves. -/
def countNames : Json → Nat × Nat
  | .arr items => countNamesItems items
  | .obj members => countNamesMembers members
  | _ => (0, 0)

/-- The same for the items of an array. -/
def countNamesItems : List Json → Nat × Nat
  | [] => (0, 0)
  | item :: rest =>
      let a := countNames item
      let b := countNamesItems rest
      (a.1 + b.1, a.2 + b.2)

/-- The same for the members of an object. -/
def countNamesMembers : List (String × Json) → Nat × Nat
  | [] => (0, 0)
  | (name, value) :: rest =>
      let a := countNames value
      let b := countNamesMembers rest
      ((if name ∈ referenceKeywords then 1 else 0) + a.1 + b.1,
        (if name = "$id" then 1 else 0) + a.2 + b.2)
end

/-- A chain of references with more links than this has come back to a reference it passed before at
the same base address and in the same dialect. -/
def Scope.chainLimit (s : Scope) : Nat :=
  let (references, addresses) := countNames s.root
  (references + 1) * (addresses + 2) * Dialect.addresses.length

end RouteContract.Schema
