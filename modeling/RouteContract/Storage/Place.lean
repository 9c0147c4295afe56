import RouteContract.Text.Blank

/-!
# Places on a disk

A place is named by the folders on the way to it. Empty names and single dots between slashes do not
count, so that a place has one normal name.
-/

namespace RouteContract.Storage

set_option autoImplicit false

/-- A place: the slashes that it begins with, and the names on the way to it. -/
structure Place where
  root : String
  names : List String
deriving Repr, DecidableEq

namespace Place

/-- The slashes at the beginning of a place. Two of them are kept; more count as one. -/
def rootOf (text : List Char) : String :=
  match (text.takeWhile (· == '/')).length with
  | 0 => ""
  | 2 => "//"
  | _ => "/"

/-- The place that a text names. -/
def ofText (text : String) : Place :=
  ⟨rootOf text.toList,
    ((Text.splitAt '/' text.toList).map String.ofList).filter fun name =>
      !(name.isEmpty || name == ".")⟩

/-- The normal name of a place. -/
def text (p : Place) : String :=
  if p.root.isEmpty && p.names.isEmpty then "." else p.root ++ "/".intercalate p.names

/-- The folder that a place is in. -/
def folder (p : Place) : Place := { p with names := p.names.dropLast }

/-- The folders on the way to a place, outermost first, and the place itself. -/
def way (p : Place) : List Place :=
  (List.range p.names.length).map fun n => { p with names := p.names.take (n + 1) }

/-- A place as seen from a folder; a place that begins with a slash stays where it is. -/
def under (base p : Place) : Place :=
  if p.root.isEmpty then ⟨base.root, base.names ++ p.names⟩ else p

end Place

end RouteContract.Storage
