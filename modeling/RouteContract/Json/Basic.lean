import RouteContract.Data.Table
import RouteContract.Number.Quantity

/-!
# JSON values

The values that schemas, requests and documents are made of. Integers of any size and floating-point
numbers are different values even where they denote the same number, and the members of an object
keep their order.

Two equalities are computed here. Under schema equality an integer equals a floating-point number of
the same quantity and a boolean equals only itself. Under numeric equality a boolean also equals the
number zero or one that it counts as.
-/

namespace RouteContract

set_option autoImplicit false

open Number

/-- A JSON value. -/
inductive Json where
  | null
  | bool (value : Bool)
  | int (value : Int)
  | float (value : Binary64)
  | str (value : String)
  | arr (items : List Json)
  | obj (members : List (String × Json))

namespace Json

instance : Inhabited Json := ⟨.null⟩

/-! ## Size -/

mutual
/-- The number of values and names a value is made of. -/
def weight : Json → Nat
  | .null => 1
  | .bool _ => 1
  | .int _ => 1
  | .float _ => 1
  | .str _ => 1
  | .arr items => 1 + weightItems items
  | .obj members => 1 + weightMembers members

/-- The weight of the items of an array. -/
def weightItems : List Json → Nat
  | [] => 0
  | item :: rest => weight item + weightItems rest

/-- The weight of the members of an object, their names included. -/
def weightMembers : List (String × Json) → Nat
  | [] => 0
  | (_, value) :: rest => 1 + weight value + weightMembers rest
end

/-- An item weighs at most as much as all items. -/
theorem weight_le_weightItems {item : Json} {items : List Json} (h : item ∈ items) :
    weight item ≤ weightItems items := by
  induction items with
  | nil => cases h
  | cons x xs ih =>
    simp only [weightItems]
    cases h with
    | head => omega
    | tail _ h => have := ih h; omega

/-- A member weighs less than all members. -/
theorem weight_lt_weightMembers {entry : String × Json} {members : List (String × Json)}
    (h : entry ∈ members) : weight entry.2 < weightMembers members := by
  induction members with
  | nil => cases h
  | cons x xs ih =>
    obtain ⟨name, value⟩ := x
    simp only [weightMembers]
    cases h with
    | head => simp only; omega
    | tail _ h => have := ih h; omega

/-- Every value weighs something. -/
theorem weight_pos (v : Json) : 0 < weight v := by
  cases v <;> simp only [weight] <;> omega

/-! ## Views -/

/-- The text of a string. -/
def text? : Json → Option String
  | .str s => some s
  | _ => none

/-- The members of an object. -/
def members? : Json → Option (List (String × Json))
  | .obj members => some members
  | _ => none

/-- The items of an array. -/
def items? : Json → Option (List Json)
  | .arr items => some items
  | _ => none

/-- The value of a member of an object. -/
def member? (v : Json) (name : String) : Option Json := v.members?.bind (Table.get? · name)

/-- The quantity of a number; a boolean has none. -/
def quantity? : Json → Option Quantity
  | .int i => some (.ofInt i)
  | .float x => some (.ofBinary64 x)
  | _ => none

/-- The quantity of a number, a boolean counting as zero or one. -/
def count? : Json → Option Quantity
  | .bool b => some (.ofInt (if b then 1 else 0))
  | v => v.quantity?

/-- Whether a value is nothing: null, false, a zero, or empty. -/
def isVoid : Json → Bool
  | .null => true
  | .bool b => !b
  | .int i => i == 0
  | .float x => x.isZero
  | .str s => s.isEmpty
  | .arr items => items.isEmpty
  | .obj members => members.isEmpty

/-! ## Equality -/

/-- How two values that are neither both arrays nor both objects compare. -/
def equalScalars (quantity : Json → Option Quantity) : Json → Json → Bool
  | .null, .null => true
  | .bool a, .bool b => a == b
  | .str a, .str b => a == b
  | v, w =>
      match quantity v, quantity w with
      | some p, some q => p.equal q
      | _, _ => false

mutual
/-- Equality of values, numbers being compared by the quantity they are given. -/
def equalBy (quantity : Json → Option Quantity) : Json → Json → Bool
  | .arr xs, w =>
      match w with
      | .arr ys => equalItemsBy quantity xs ys
      | _ => false
  | .obj ms, w =>
      match w with
      | .obj ns => ms.length == ns.length && equalMembersBy quantity ms ns
      | _ => false
  | .null, w => equalScalars quantity .null w
  | .bool b, w => equalScalars quantity (.bool b) w
  | .int i, w => equalScalars quantity (.int i) w
  | .float x, w => equalScalars quantity (.float x) w
  | .str s, w => equalScalars quantity (.str s) w

/-- Equality of items one by one. -/
def equalItemsBy (quantity : Json → Option Quantity) : List Json → List Json → Bool
  | [], [] => true
  | x :: xs, y :: ys => equalBy quantity x y && equalItemsBy quantity xs ys
  | _, _ => false

/-- Whether each member of the first list has an equal one of the same name in the second. -/
def equalMembersBy (quantity : Json → Option Quantity) :
    List (String × Json) → List (String × Json) → Bool
  | [], _ => true
  | (name, value) :: rest, ns =>
      (match Table.get? ns name with
        | some other => equalBy quantity value other
        | none => false) &&
        equalMembersBy quantity rest ns
end

/-- Schema equality: 1 equals 1.0, and a boolean equals only itself. -/
def equal (v w : Json) : Bool := equalBy quantity? v w

/-- Numeric equality: 1 equals 1.0 and true. -/
def numericallyEqual (v w : Json) : Bool := equalBy count? v w

end Json

end RouteContract
