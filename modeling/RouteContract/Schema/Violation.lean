import RouteContract.Json.Basic
import RouteContract.Pointer
import RouteContract.Schema.Fault

/-!
# Violations

What evaluating a schema finds wrong with a value: which keyword refused which part of it, where
that part stands in the value, and through which keywords of the schema it was reached.
-/

namespace RouteContract.Schema

set_option autoImplicit false

open RouteContract Pointer

/-- One refusal. -/
structure Violation where
  /-- The keyword that refused the value; none for the schema that refuses everything. -/
  keyword : Option String
  /-- What the schema says under that keyword. -/
  keywordValue : Json
  message : String
  /-- The part of the value that was refused. -/
  value : Json
  /-- The schema that the keyword stands in. -/
  schema : List (String × Json)
  path : List Step
  schemaPath : List Step

namespace Violation

/-- The refusal by a keyword of a schema, at the place of both. -/
def here (schema : List (String × Json)) (keyword : String) (keywordValue value : Json)
    (message : String) : Violation :=
  ⟨some keyword, keywordValue, message, value, schema, [], []⟩

/-- The refusal by a schema one step further up. -/
def under (step schemaStep : Option Step) (e : Violation) : Violation :=
  { e with path := step.toList ++ e.path, schemaPath := schemaStep.toList ++ e.schemaPath }

end Violation

/-! ## Walking a list -/

/-- What a function finds in the elements of a list, in order, or only its first find. The elements
after the first find are then not looked at. -/
def collect {α β : Type} (onlyFirst : Bool) (f : α → Except Fault (List β)) :
    List α → Except Fault (List β)
  | [] => .ok []
  | x :: rest =>
      match f x with
      | .error e => .error e
      | .ok [] => collect onlyFirst f rest
      | .ok (b :: bs) =>
          if onlyFirst then .ok (b :: bs)
          else (collect onlyFirst f rest).map (b :: bs ++ ·)

/-- The first element in which a function finds nothing, and the elements after it. -/
def firstClean {α β : Type} (f : α → Except Fault (List β)) :
    List α → Except Fault (Option (α × List α))
  | [] => .ok none
  | x :: rest =>
      match f x with
      | .error e => .error e
      | .ok [] => .ok (some (x, rest))
      | .ok (_ :: _) => firstClean f rest

/-- The elements that pass a test. -/
def keepIf {α : Type} (f : α → Except Fault Bool) : List α → Except Fault (List α)
  | [] => .ok []
  | x :: rest =>
      match f x with
      | .error e => .error e
      | .ok b => (keepIf f rest).map fun kept => if b then x :: kept else kept

/-- Whether an element passes a test; the elements after it are not tested. -/
def existsIn {α : Type} (f : α → Except Fault Bool) : List α → Except Fault Bool
  | [] => .ok false
  | x :: rest =>
      match f x with
      | .error e => .error e
      | .ok true => .ok true
      | .ok false => existsIn f rest

/-- How many elements pass a test, added to a count, and whether these are too many. The elements
after those that are too many are not tested. -/
def countIn {α : Type} (tooMany : Nat → Except Fault Bool) (f : α → Except Fault Bool)
    (count : Nat) : List α → Except Fault (Nat × Bool)
  | [] => .ok (count, false)
  | x :: rest =>
      match f x with
      | .error e => .error e
      | .ok false => countIn tooMany f count rest
      | .ok true =>
          match tooMany (count + 1) with
          | .error e => .error e
          | .ok true => .ok (count + 1, true)
          | .ok false => countIn tooMany f (count + 1) rest

end RouteContract.Schema
