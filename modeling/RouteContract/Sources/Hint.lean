import RouteContract.Json.Basic

/-!
# Hints

A hint is how the type of a field, a parameter or an answer is written in a module. In the document
of a module a text is a name, null is the type of null, and everything else is an object whose first
member tells what it is.
-/

namespace RouteContract.Sources

set_option autoImplicit false

open RouteContract

/-- A value that a hint may list. -/
inductive WrittenConstant where
  | value (v : Json)
  | bytes (text : String)
  /-- A member of an enumeration. -/
  | member (enumeration name : String)
  | group (constants : List WrittenConstant)

/-- A hint as it is written. -/
inductive Hint where
  /-- The type of null. -/
  | nothing
  | named (n : String)
  /-- A name in quotation marks, which need not be there yet. -/
  | quoted (n : String)
  /-- A name with arguments. -/
  | applied (n : String) (arguments : List Hint)
  | union (members : List Hint)
  /-- A union whose members stand between bars. -/
  | either (members : List Hint)
  | optional (h : Hint)
  | choice (constants : List WrittenConstant)
  | remarked (h : Hint) (remarks : List Json)
  /-- A hint that says whether the field has to be there. -/
  | demanded (isRequired : Bool) (h : Hint)
  /-- A request with the types of its three parts. -/
  | request (parts : List Hint)
  /-- A function, by the types of what it takes and, at the end, of what it answers. -/
  | callable (parts : List Hint)

/-- The document of a module does not have the form of one. -/
inductive FormError where
  | unknownForm
deriving Repr, DecidableEq

/-! ## Reading -/

/-- The items of an array. -/
def itemsOf : Json → Except FormError (List Json)
  | .arr items => .ok items
  | _ => .error .unknownForm

/-- A text. -/
def textOf : Json → Except FormError String
  | .str s => .ok s
  | _ => .error .unknownForm

/-- A member that has to be there. -/
def memberOf (members : Table Json) (name : String) : Except FormError Json :=
  match Table.get? members name with
  | some v => .ok v
  | none => .error .unknownForm

/-- The value of a document of a constant. -/
def WrittenConstant.readWith : Nat → Json → Except FormError WrittenConstant
  | 0, _ => .error .unknownForm
  | fuel + 1, .obj [(key, v)] =>
      if key = "bytes" then (textOf v).map .bytes
      else if key = "enum" then do
        let s ← textOf v
        let owner := s.toList.takeWhile (· != '.')
        return .member (String.ofList owner) (String.ofList (s.toList.drop (owner.length + 1)))
      else if key = "literal" then do
        let items ← itemsOf v
        return .group (← items.mapM (WrittenConstant.readWith fuel))
      else .ok (.value (.obj [(key, v)]))
  | _ + 1, v => .ok (.value v)

/-- The constant of a document. -/
def WrittenConstant.read (d : Json) : Except FormError WrittenConstant :=
  WrittenConstant.readWith d.weight d

/-- The hint of a document, read in a number of steps. -/
def Hint.readWith : Nat → Json → Except FormError Hint
  | 0, _ => .error .unknownForm
  | _ + 1, .null => .ok .nothing
  | _ + 1, .str n => .ok (.named n)
  | fuel + 1, .obj ((key, v) :: rest) =>
      let parts : Except FormError (List Hint) := do (← itemsOf v).mapM (Hint.readWith fuel)
      if key = "fwd" then (textOf v).map .quoted
      else if key = "g" then do
        let n ← textOf v
        let arguments ← itemsOf (← memberOf rest "args")
        return .applied n (← arguments.mapM (Hint.readWith fuel))
      else if key = "union" then parts.map .union
      else if key = "or" then parts.map .either
      else if key = "optional" then (Hint.readWith fuel v).map .optional
      else if key = "literal" then do
        return .choice (← (← itemsOf v).mapM WrittenConstant.read)
      else if key = "annotated" then do
        let h ← Hint.readWith fuel v
        return .remarked h (← itemsOf (← memberOf rest "meta"))
      else if key = "required" then (Hint.readWith fuel v).map (.demanded true)
      else if key = "notrequired" then (Hint.readWith fuel v).map (.demanded false)
      else if key = "request" then parts.map .request
      else if key = "callable" then parts.map .callable
      else .error .unknownForm
  | _ + 1, _ => .error .unknownForm

/-- The hint of a document. -/
def Hint.read (d : Json) : Except FormError Hint := Hint.readWith d.weight d

end RouteContract.Sources
