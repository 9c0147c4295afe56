import RouteContract.Json.Display
import RouteContract.Json.Writer
import RouteContract.Pattern.Matcher
import RouteContract.Schema.Fault
import RouteContract.Schema.Format
import RouteContract.Schema.Unique

/-!
# Assertions

The keywords of a schema that look at a value without applying another schema to a part of it. Each
yields the messages of its failures, in order. A keyword that does not concern values of a kind
accepts them. A message shows values, and a value that has no text, an integer with too many digits
in it, cannot be shown: then there is a fault in place of the message.
-/

namespace RouteContract.Schema

set_option autoImplicit false

open RouteContract Number

/-! ## Findings -/

/-- A finding whose message shows some values. -/
def showing {α : Type} (shown : List Json) (finding : α) : Except Fault (List α) :=
  if shown.all Json.isWritable then .ok [finding] else .error .badNumeral

/-- One finding when something is refuted. -/
def refuteWhen {α : Type} (refuted : Except Fault Bool) (shown : List Json) (finding : α) :
    Except Fault (List α) :=
  match refuted with
  | .error e => .error e
  | .ok true => showing shown finding
  | .ok false => .ok []

/-- One finding when a condition fails. -/
def refuteUnless {α : Type} (holds : Except Fault Bool) (shown : List Json) (finding : α) :
    Except Fault (List α) :=
  refuteWhen (holds.map (!·)) shown finding

/-! ## Types -/

/-- The types a schema can name. -/
inductive TypeName where
  | null
  | boolean
  | integer
  | number
  | string
  | array
  | object
deriving Repr, DecidableEq

namespace TypeName

/-- The type of a name. -/
def ofText? (name : String) : Option TypeName :=
  if name = "null" then some .null
  else if name = "boolean" then some .boolean
  else if name = "integer" then some .integer
  else if name = "number" then some .number
  else if name = "string" then some .string
  else if name = "array" then some .array
  else if name = "object" then some .object
  else none

/-- Whether a value is of a type. A floating-point number that is whole is also an integer, and a
boolean is no number. -/
def admits : TypeName → Json → Bool
  | .null, .null => true
  | .boolean, .bool _ => true
  | .integer, .int _ => true
  | .integer, .float x => x.isWhole
  | .number, .int _ => true
  | .number, .float _ => true
  | .string, .str _ => true
  | .array, .arr _ => true
  | .object, .obj _ => true
  | _, _ => false

/-- The same in the dialects in which no floating-point number is an integer. -/
def admitsStrictly : TypeName → Json → Bool
  | .integer, .float _ => false
  | type, v => type.admits v

end TypeName

/-! ## Lists in keywords -/

/-- The elements of a value that is walked as a list: the items of an array, the characters of a
text, or the names of an object. -/
def elements (v : Json) : Except Fault (List Json) :=
  match v with
  | .arr items => .ok items
  | .str s => .ok (s.toList.map fun c => .str (String.ofList [c]))
  | .obj members => .ok (members.map fun entry => .str entry.1)
  | _ => .error .wrongKind

/-- The types that a keyword names: one, or several. -/
def typeNames (v : Json) : Except Fault (List Json) :=
  match v with
  | .str s => .ok [.str s]
  | v => elements v

/-- Whether a value is of one of several types, tried in order. -/
def isOfSomeType (admits : TypeName → Json → Bool) (v : Json) : List Json → Except Fault Bool
  | [] => .ok false
  | .str name :: rest =>
      match TypeName.ofText? name with
      | none => .error .unknownType
      | some type => if admits type v then .ok true else isOfSomeType admits v rest
  | .arr _ :: _ => .error .wrongKind
  | .obj _ :: _ => .error .wrongKind
  | _ :: _ => .error .unknownType

/-- Whether a name is in a table of names: a member of an object, an item of an array, or a part of
a text. -/
def namesContain (table : Json) (name : String) : Except Fault Bool :=
  match table with
  | .obj members => .ok (Table.has members name)
  | .arr items => .ok (items.any (Json.numericallyEqual (.str name)))
  | .str s => .ok (name.isEmpty || (s.splitOn name).length != 1)
  | _ => .error .wrongKind

/-- Whether an element of a list of names is missing from an object. -/
def isMissing (members : List (String × Json)) (element : Json) : Except Fault Bool :=
  match element with
  | .str name => .ok (!Table.has members name)
  | .arr _ => .error .wrongKind
  | .obj _ => .error .wrongKind
  | _ => .ok true

/-! ## Limits -/

/-- Compare the quantity of a value with a limit. -/
def compareLimit (compare : Quantity → Quantity → Bool) (v limit : Json) : Except Fault Bool :=
  match v.count?, limit.count? with
  | some a, some b => .ok (compare a b)
  | _, _ => .error .wrongKind

/-- Whether a keyword's value equals a small number. -/
def isNumber (n : Nat) (v : Json) : Bool := v.numericallyEqual (.int n)

/-- The message of a length that is beyond a limit, with another wording for the limit `special`. -/
def lengthMessage (v : Json) (limit : Json) (special : Nat)
    (specially generally : String) : String :=
  v.display ++ " " ++ (if isNumber special limit then specially else generally)

/-- The failures of a limit on a number. -/
def numberLimit (fails : Quantity → Quantity → Bool) (words : String) (v limit : Json) :
    Except Fault (List String) :=
  match v.quantity? with
  | none => .ok []
  | some _ =>
      refuteWhen (compareLimit fails v limit) [v, limit] (v.display ++ words ++ limit.display)

/-- The failures of a limit on a length. -/
def lengthLimit (fails : Quantity → Quantity → Bool) (special : Nat) (specially generally : String)
    (v limit : Json) (length : Option Nat) : Except Fault (List String) :=
  match length with
  | none => .ok []
  | some n =>
      refuteWhen (compareLimit fails (.int n) limit) [v]
        (lengthMessage v limit special specially generally)

/-- The number of characters of a text. -/
def textLength? (v : Json) : Option Nat := v.text?.map String.length

/-- The number of items of an array. -/
def itemCount? (v : Json) : Option Nat := v.items?.map List.length

/-- The number of members of an object. -/
def memberCount? (v : Json) : Option Nat := v.members?.map List.length

/-! ## Multiples -/

/-- Whether one rational number is a whole multiple of another one. -/
def dividesExactly (a b : Rat) : Bool := (a / b).den == 1

/-- A value as a floating-point number; an integer may be too large for one. -/
def asBinary64 : Json → Except Fault Binary64
  | .float x => .ok x
  | .int i =>
      match Binary64.ofInt i with
      | .infinite _ => .error .tooLarge
      | x => .ok x
  | _ => .error .wrongKind

/-- Whether a number is no multiple of a floating-point one. The quotient counts as it is rounded;
only one that is too large is taken exactly. -/
def failsMultipleOfFloat (v : Json) (divisor : Binary64) : Except Fault Bool :=
  match asBinary64 v with
  | .error e => .error e
  | .ok x =>
      match x.divide? divisor with
      | none => .error .zeroDivisor
      | some .undefined => .error .badNumeral
      | some (.infinite _) =>
          match v.quantity?, divisor.toRat? with
          | some (.finite a), some b => .ok (!dividesExactly a b)
          | _, _ => .error .tooLarge
      | some q => .ok (!q.isWhole)

/-- Whether a number is no multiple of an integer. -/
def failsMultipleOfInt (v : Json) (divisor : Int) : Except Fault Bool :=
  match v with
  | .int i => if divisor = 0 then .error .zeroDivisor else .ok (i % divisor != 0)
  | .float x =>
      match asBinary64 (.int divisor) with
      | .error e => .error e
      | .ok d =>
          match d.toRat?, x.toRat? with
          | some b, some a => if b == 0 then .error .zeroDivisor else .ok (!dividesExactly a b)
          | some b, none => if b == 0 then .error .zeroDivisor else .ok true
          | none, _ => .error .tooLarge
  | _ => .error .wrongKind

/-- Whether a number is no multiple of the value of the keyword. -/
def failsMultipleOf (v divisor : Json) : Except Fault Bool :=
  match divisor with
  | .float d => failsMultipleOfFloat v d
  | .int d => failsMultipleOfInt v d
  | .bool b => failsMultipleOfInt v (if b then 1 else 0)
  | _ => .error .wrongKind

/-! ## Texts -/

/-- A text as a regular expression. -/
def readPattern (source : String) : Except Fault Pattern :=
  match Pattern.read {} source.toList with
  | .ok p => .ok p
  | .error .malformed => .error .badPattern
  | .error .hugeCount => .error .tooLarge
  | .error .invalidValue => .error .badNumeral

/-- Whether a pattern occurs in a text. -/
def patternOccurs (source text : String) : Except Fault Bool :=
  (readPattern source).map fun p => p.occursIn text.toList

/-- Whether a text has a format; an unknown format accepts all texts. -/
def formatHolds (format : Json) (v : Json) : Except Fault Bool :=
  match format, v with
  | .arr _, _ => .error .wrongKind
  | .obj _, _ => .error .wrongKind
  | .str name, .str s =>
      match Format.holds name s.toList with
      | .ok b => .ok b
      | .error .hugeCount => .error .tooLarge
      | .error _ => .error .badNumeral
  | _, _ => .ok true

/-! ## The keywords -/

/-- Keywords that look at a value by themselves. -/
inductive Assertion where
  | type
  | strictType
  | enumeration
  | constant
  | minimum
  | maximum
  | exclusiveMinimum
  | exclusiveMaximum
  | multipleOf
  | minLength
  | maxLength
  | minItems
  | maxItems
  | minProperties
  | maxProperties
  | pattern
  | format
  | uniqueItems
  | required
deriving Repr, DecidableEq

/-- The keyword of a name. -/
def Assertion.ofKeyword? (keyword : String) : Option Assertion :=
  (Table.get?
    [("type", Assertion.type), ("enum", .enumeration), ("const", .constant), ("minimum", .minimum),
      ("maximum", .maximum), ("exclusiveMinimum", .exclusiveMinimum),
      ("exclusiveMaximum", .exclusiveMaximum), ("multipleOf", .multipleOf),
      ("minLength", .minLength), ("maxLength", .maxLength), ("minItems", .minItems),
      ("maxItems", .maxItems), ("minProperties", .minProperties), ("maxProperties", .maxProperties),
      ("pattern", .pattern), ("format", .format), ("uniqueItems", .uniqueItems),
      ("required", .required)]
    keyword)

/-- The messages of the names that an object lacks, or of the first such name. -/
def missingMessages (onlyFirst : Bool) (words : String) (members : List (String × Json)) :
    List Json → Except Fault (List String)
  | [] => .ok []
  | name :: rest =>
      match isMissing members name with
      | .error e => .error e
      | .ok false => missingMessages onlyFirst words members rest
      | .ok true =>
          match showing [name] (name.display ++ words) with
          | .error e => .error e
          | .ok first =>
              if onlyFirst then .ok first
              else (missingMessages onlyFirst words members rest).map (first ++ ·)

/-- The failures of the types that a keyword names. -/
def typeFailures (admits : TypeName → Json → Bool) (x v : Json) : Except Fault (List String) :=
  match typeNames x with
  | .error e => .error e
  | .ok names =>
      refuteUnless (isOfSomeType admits v names) (v :: names)
        (v.display ++ " is not of type " ++ ", ".intercalate (names.map Json.display))

/-- The messages with which a keyword refuses a value, or the first of them. -/
def Assertion.failures (onlyFirst : Bool) (assertion : Assertion) (x v : Json) :
    Except Fault (List String) :=
  match assertion with
  | .type => typeFailures TypeName.admits x v
  | .strictType => typeFailures TypeName.admitsStrictly x v
  | .enumeration =>
      match elements x with
      | .error e => .error e
      | .ok values =>
          refuteUnless (.ok (values.any fun value => Json.equal value v)) [v, x]
            (v.display ++ " is not one of " ++ x.display)
  | .constant => refuteUnless (.ok (Json.equal v x)) [x] (x.display ++ " was expected")
  | .minimum => numberLimit Quantity.less " is less than the minimum of " v x
  | .maximum =>
      numberLimit (fun a b => Quantity.less b a) " is greater than the maximum of " v x
  | .exclusiveMinimum =>
      numberLimit Quantity.atMost " is less than or equal to the minimum of " v x
  | .exclusiveMaximum =>
      numberLimit (fun a b => Quantity.atMost b a)
        " is greater than or equal to the maximum of " v x
  | .multipleOf =>
      match v.quantity? with
      | none => .ok []
      | some _ =>
          refuteWhen (failsMultipleOf v x) [v, x]
            (v.display ++ " is not a multiple of " ++ x.displayBare)
  | .minLength =>
      lengthLimit Quantity.less 1 "should be non-empty" "is too short" v x (textLength? v)
  | .maxLength =>
      lengthLimit (fun a b => Quantity.less b a) 0 "is expected to be empty" "is too long" v x
        (textLength? v)
  | .minItems =>
      lengthLimit Quantity.less 1 "should be non-empty" "is too short" v x (itemCount? v)
  | .maxItems =>
      lengthLimit (fun a b => Quantity.less b a) 0 "is expected to be empty" "is too long" v x
        (itemCount? v)
  | .minProperties =>
      lengthLimit Quantity.less 1 "should be non-empty" "does not have enough properties" v x
        (memberCount? v)
  | .maxProperties =>
      lengthLimit (fun a b => Quantity.less b a) 0 "is expected to be empty"
        "has too many properties" v x (memberCount? v)
  | .pattern =>
      match v, x with
      | .str s, .str source =>
          refuteUnless (patternOccurs source s) [v, x]
            (v.display ++ " does not match " ++ x.display)
      | .str _, _ => .error .wrongKind
      | _, _ => .ok []
  | .format => refuteUnless (formatHolds x v) [v, x] (v.display ++ " is not a " ++ x.display)
  | .uniqueItems =>
      match v with
      | .arr items =>
          refuteUnless (.ok (x.isVoid || allDistinct items)) [v]
            (v.display ++ " has non-unique elements")
      | _ => .ok []
  | .required =>
      match v with
      | .obj members =>
          match elements x with
          | .error e => .error e
          | .ok names => missingMessages onlyFirst " is a required property" members names
      | _ => .ok []

end RouteContract.Schema
