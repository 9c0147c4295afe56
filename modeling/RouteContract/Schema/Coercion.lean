import RouteContract.Json.Display
import RouteContract.Schema.Assertion
import RouteContract.Schema.Scope

/-!
# Coercion

Values of requests arrive as texts or in loose forms. Before a value is evaluated, each part of it
that is not of the type its schema declares is turned into one of those types if a rule allows that;
any other part stays as it is, for the evaluation to report. Coercion follows references, members
and items, and does not look into alternatives.
-/

namespace RouteContract.Schema

set_option autoImplicit false

open RouteContract Number

/-! ## Single values -/

/-- Whether a value is of a declared type; a type that does not exist admits every value. -/
def admitsDeclared (v : Json) : Json → Bool
  | .str name =>
      match TypeName.ofText? name with
      | some type => type.admits v
      | none => true
  | _ => true

/-- Whether a trimmed text is an optional minus sign and digits. -/
def isIntegerText (s : List Char) : Bool :=
  let digits :=
    match s with
    | '-' :: rest => rest
    | _ => s
  !digits.isEmpty && digits.all Text.Unicode.isDecimal

/-- The number a text spells: an integer if it is one, otherwise a finite floating-point number. -/
def numberOfText? (s : List Char) : Option Json :=
  let trimmed := Text.trim s
  match readInteger trimmed with
  | .ok i => some (.int i)
  | .error _ =>
      match readFloat? trimmed with
      | some x => if x.isFinite then some (.float x) else none
      | none => none

/-- The text of a number; a whole number is written as an integer. An integer with too many digits
has no text. -/
def textOfNumber (v : Json) : Except Fault (Option String) :=
  match v with
  | .int i =>
      if v.isWritable then .ok (some (String.ofList (integerText i))) else .error .badNumeral
  | .float x =>
      let chars :=
        match x.isWhole, x.whole? with
        | true, some i => integerText i
        | _, _ => FloatStyle.plain.text x
      .ok (some (String.ofList chars))
  | _ => .ok none

/-- A value as a number, or as an integer only; nothing when no rule applies. -/
def toNumber (integerOnly : Bool) : Json → Except Fault (Option Json)
  | .bool b => .ok (some (.int (if b then 1 else 0)))
  | .null => .ok (some (.int 0))
  | .str s =>
      if integerOnly then
        if isIntegerText (Text.trim s.toList) then
          match readInteger s.toList with
          | .ok i => .ok (some (.int i))
          | .error _ => .error .badNumeral
        else .ok none
      else .ok (numberOfText? s.toList)
  | _ => .ok none

/-- A value as a text. -/
def toText : Json → Except Fault (Option Json)
  | .null => .ok (some (.str ""))
  | .bool b => .ok (some (.str (if b then "true" else "false")))
  | v => (textOfNumber v).map (·.map .str)

/-- A value as a boolean. -/
def toBoolean? : Json → Option Json
  | .null => some (.bool false)
  | .str s =>
    if s = "true" then some (.bool true) else if s = "false" then some (.bool false) else none
  | .bool _ => none
  | v =>
      if v.numericallyEqual (.int 0) then some (.bool false)
      else if v.numericallyEqual (.int 1) then some (.bool true)
      else none

/-- A value as null. -/
def toNull? : Json → Option Json
  | .str s => if s.isEmpty then some .null else none
  | .null => none
  | v => if v.numericallyEqual (.int 0) then some .null else none

/-- A value as one of a declared type, or nothing when no rule applies. -/
def toDeclared (v : Json) (declared : Json) : Except Fault (Option Json) :=
  match declared with
  | .str name =>
      match TypeName.ofText? name with
      | some .number => toNumber false v
      | some .integer => toNumber true v
      | some .string => toText v
      | some .boolean => .ok (toBoolean? v)
      | some .null => .ok (toNull? v)
      | _ => .ok none
  | _ => .ok none

/-- A value as the first of several types that a rule leads to, or as it is. -/
def toFirst (v : Json) : List Json → Except Fault Json
  | [] => .ok v
  | declared :: rest =>
      match toDeclared v declared with
      | .error e => .error e
      | .ok (some w) => .ok w
      | .ok none => toFirst v rest

/-- A value as one of the types that a schema declares. No rule applies to arrays and objects. -/
def coerceType (declared : Option Json) (v : Json) : Except Fault Json :=
  match declared with
  | none => .ok v
  | some .null => .ok v
  | some x =>
      let types :=
        match x with
        | .arr types => types
        | _ => [x]
      if types.any (admitsDeclared v) then .ok v else toFirst v types

/-! ## Whole values -/

/-- The schema for a member: the declared one, otherwise the one for additional members. -/
def memberSchema? (schema : List (String × Json)) (name : String) : Except Fault (Option Json) :=
  let declared :=
    match Table.get? schema "properties" with
    | none => Json.obj []
    | some x => if x.isVoid then Json.obj [] else x
  match namesContain declared name, declared with
  | .error e, _ => .error e
  | .ok true, .obj subs => .ok (Table.get? subs name)
  | .ok true, _ => .error .wrongKind
  | .ok false, _ =>
      match Table.get? schema "additionalProperties" with
      | some (.obj extra) => .ok (some (.obj extra))
      | _ => .ok none

/-- The schema for the item at a position. -/
def itemSchema? (schema : List (String × Json)) (position : Nat) : Option Json :=
  match Table.get? schema "items" with
  | some (.arr subs) => subs[position]?
  | some (.obj sub) => some (.obj sub)
  | _ => none

/-- The elements of a list after a function that may fail. -/
def mapUntilFault {α β : Type} (f : α → Except Fault β) : List α → Except Fault (List β)
  | [] => .ok []
  | x :: rest =>
      match f x with
      | .error e => .error e
      | .ok y => (mapUntilFault f rest).map (y :: ·)

/-- The reference of a schema that coercion follows: one into the same document. -/
def localReference? (schema : List (String × Json)) : Option String :=
  match Table.get? schema "$ref" with
  | some (.str ref) => if ref.toList.head? == some '#' then some ref else none
  | _ => none

/-- Coercion of a value under a schema, with the number of references that may still be followed
before a part of the value is taken. A reference that leads nowhere leaves the value as it is. -/
def coerceUnder (scope : Scope) (hops : Nat) (base : String) (schema v : Json) :
    Except Fault Json :=
  match schema with
  | .obj keywords =>
      match localReference? keywords, hops with
      | some ref, hops + 1 =>
          match scope.lookup base ref with
          | .error .unresolvable => .ok v
          | .error e => .error e
          | .ok (target, inside) => coerceUnder scope hops inside target v
      | some _, 0 => .error .endless
      | none, _ =>
          match v with
          | .obj members =>
              (mapUntilFault
                  (fun (member : { member // member ∈ members }) =>
                    match memberSchema? keywords member.1.1 with
                    | .error e => .error e
                    | .ok none => .ok member.1
                    | .ok (some sub) =>
                        have := Json.weight_lt_weightMembers member.2
                        (coerceUnder scope scope.chainLimit base sub member.1.2).map
                          (member.1.1, ·))
                  members.attach).map .obj
          | .arr items =>
              (mapUntilFault
                  (fun (entry : { item // item ∈ items } × Nat) =>
                    match itemSchema? keywords entry.2 with
                    | none => .ok entry.1.1
                    | some sub =>
                        have := Json.weight_le_weightItems entry.1.2
                        coerceUnder scope scope.chainLimit base sub entry.1.1)
                  items.attach.zipIdx).map .arr
          | w => coerceType (Table.get? keywords "type") w
  | _ => .ok v
termination_by (v.weight, hops)
decreasing_by
  all_goals simp only [Prod.lex_def, true_and, Json.weight]
  all_goals omega

/-- The address by which a schema is known while values are coerced under it. -/
def coercionAddress : String := "urn:restspec:schema"

/-- Coercion of a value under a schema document. -/
def coerce (schema v : Json) : Except Fault Json :=
  let scope : Scope := ⟨schema, coercionAddress⟩
  coerceUnder scope scope.chainLimit coercionAddress schema v

end RouteContract.Schema
