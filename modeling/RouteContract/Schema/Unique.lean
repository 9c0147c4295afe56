import RouteContract.Json.Basic

/-!
# Repeated items

Whether an array holds an item twice. Where all items can be put into an order, only neighbours in
that order are compared; otherwise every item is compared with every other one. Texts are ordered by
code points, numbers by size, and arrays item by item; booleans count as numbers inside arrays only.
-/

namespace RouteContract.Schema

set_option autoImplicit false

open RouteContract

mutual
/-- Whether one value comes before another one, or nothing when the two have no order. -/
def precedes? : Json → Json → Option Bool
  | .str a, w =>
      match w with
      | .str b => some (decide (a < b))
      | _ => none
  | .arr xs, w =>
      match w with
      | .arr ys => precedesItems? xs ys
      | _ => none
  | v, w =>
      match v.count?, w.count? with
      | some a, some b => some (a.less b)
      | _, _ => none

/-- Arrays are ordered by their first items that differ, and otherwise by their lengths. -/
def precedesItems? : List Json → List Json → Option Bool
  | [], ys => some (!ys.isEmpty)
  | _ :: _, [] => some false
  | x :: xs, y :: ys =>
      if x.numericallyEqual y then precedesItems? xs ys else precedes? x y
end

/-- Whether two items of an array have an order; a boolean has none with anything. -/
def areOrdered (v w : Json) : Bool :=
  match v, w with
  | .bool _, _ => false
  | _, .bool _ => false
  | _, _ => (precedes? v w).isSome && (precedes? w v).isSome

/-- Whether a property holds of every two elements of a list. -/
def allPairs {α : Type} (p : α → α → Bool) : List α → Bool
  | [] => true
  | x :: xs => xs.all (p x) && allPairs p xs

/-- Whether a property holds of every two neighbours in a list. -/
def allNeighbours {α : Type} (p : α → α → Bool) : List α → Bool
  | x :: y :: rest => p x y && allNeighbours p (y :: rest)
  | _ => true

/-- Whether no item of an array occurs twice. -/
def allDistinct (items : List Json) : Bool :=
  let differ := fun v w => !Json.equal v w
  if allPairs areOrdered items then
    allNeighbours differ (items.mergeSort fun v w => !((precedes? w v).getD false))
  else allPairs differ items

end RouteContract.Schema
