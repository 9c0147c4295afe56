import RouteContract.Json.Display
import RouteContract.Sources.Error
import RouteContract.Sources.Name

/-!
# Terms

A term is what a hint means in a module. Unions are flat, without repetitions, and of at least two
members; remarks on remarks are one list of remarks; the constants of a choice are told apart by
kind and value. Two terms are the same when they are built in the same way from the same parts, the
order of the members of a union aside.
-/

namespace RouteContract.Sources

set_option autoImplicit false

open RouteContract

/-- A class is named by its place in the order of definition. -/
abbrev ClassId := Nat

/-- A value that a choice lists. -/
inductive Constant where
  | value (v : Json)
  | bytes (text : String)
  /-- A member of an enumeration: how a message shows it, and its value where the member itself
  counts as one. -/
  | member (owner : ClassId) (shown : String) (plain : Option Json)

/-- What a hint means. -/
inductive Term where
  /-- The type of null. -/
  | nothing
  /-- A general name by itself. -/
  | general (name : String)
  | declared (c : ClassId)
  /-- A name in quotation marks. -/
  | quoted (name : String)
  /-- A name that is looked up later, and the module in which this is to be done if it is told. -/
  | reference (name : String) (place : Option String)
  /-- Three dots. -/
  | dots
  /-- A general name with arguments. -/
  | applied (name : String) (arguments : List Term)
  /-- A union, and whether all of it is made of types of values. -/
  | union (isPlain : Bool) (members : List Term)
  | choice (constants : List Constant)
  | remarked (base : Term) (remarks : List Json)
  /-- A term that says whether the field has to be there. -/
  | demanded (isRequired : Bool) (base : Term)

/-! ## Constants -/

/-- The number of a kind of values. -/
def kindNumber : Json → Nat
  | .null => 0
  | .bool _ => 1
  | .int _ => 2
  | .float _ => 3
  | .str _ => 4
  | .arr _ => 5
  | .obj _ => 6

/-- Whether two constants are of one kind and equal. -/
def Constant.same : Constant → Constant → Bool
  | .value v, .value w => kindNumber v == kindNumber w && v.numericallyEqual w
  | .bytes s, .bytes t => s == t
  | .member c s _, .member d t _ => c == d && s == t
  | _, _ => false

/-- Whether a constant is told apart from others at all; arrays and objects are not. -/
def Constant.isDistinct : Constant → Bool
  | .value (.arr _) => false
  | .value (.obj _) => false
  | _ => true

/-- Constants without those that came before. -/
def distinctConstants (constants : List Constant) : List Constant :=
  if constants.all Constant.isDistinct then
    constants.foldl (fun done c => if done.any (Constant.same c) then done else done ++ [c]) []
  else constants

/-- How one byte is written between two marks. -/
def escapeByte (mark : Char) (n : Nat) : List Char :=
  let c := Char.ofNat n
  if c = mark || c = '\\' then ['\\', c]
  else if c = '\n' then ['\\', 'n']
  else if c = '\r' then ['\\', 'r']
  else if c = '\t' then ['\\', 't']
  else if 0x20 ≤ n && n ≤ 0x7E then [c]
  else '\\' :: 'x' :: Text.hexDigits 2 n

/-- Bytes as a message shows them. -/
def displayBytes (text : String) : String :=
  let mark := Text.Quoted.mark text.toList
  String.ofList
    ('b' :: mark :: (text.toUTF8.toList.map UInt8.toNat).flatMap (escapeByte mark) ++ [mark])

/-- A constant as a message shows it. -/
def Constant.display : Constant → String
  | .value v => v.display
  | .bytes text => displayBytes text
  | .member _ shown _ => shown

/-! ## Sameness -/

/-- Whether two lists hold the same constants. -/
def sameConstants (cs ds : List Constant) : Bool :=
  cs.all (fun c => ds.any (Constant.same c)) && ds.all fun d => cs.any (Constant.same d)

namespace Term

mutual
/-- Whether two terms are the same. -/
def same : Term → Term → Bool
  | .nothing, t => match t with
      | .nothing => true
      | _ => false
  | .general n, t => match t with
      | .general m => n == m
      | _ => false
  | .declared c, t => match t with
      | .declared d => c == d
      | _ => false
  | .quoted n, t => match t with
      | .quoted m => n == m
      | _ => false
  | .reference n p, t => match t with
      | .reference m q => n == m && p == q
      | _ => false
  | .dots, t => match t with
      | .dots => true
      | _ => false
  | .applied n xs, t => match t with
      | .applied m ys => n == m && sameAll xs ys
      | _ => false
  | .union _ xs, t => match t with
      | .union _ ys => allAmong xs ys && (unmatched xs ys).isEmpty
      | _ => false
  | .choice cs, t => match t with
      | .choice ds => sameConstants cs ds
      | _ => false
  | .remarked b rs, t => match t with
      | .remarked c ss => same b c && Json.equalItemsBy Json.count? rs ss
      | _ => false
  | .demanded r b, t => match t with
      | .demanded s c => r == s && same b c
      | _ => false

/-- Whether two lists of terms are the same one by one. -/
def sameAll : List Term → List Term → Bool
  | [], ys => ys.isEmpty
  | x :: xs, ys => match ys with
      | [] => false
      | y :: ys => same x y && sameAll xs ys

/-- Whether each of the first terms is among the second ones. -/
def allAmong : List Term → List Term → Bool
  | [], _ => true
  | x :: xs, ys => ys.any (same x) && allAmong xs ys

/-- Those of the second terms that are none of the first ones. -/
def unmatched : List Term → List Term → List Term
  | [], ys => ys
  | x :: xs, ys => unmatched xs (ys.filter fun y => !same x y)
end

/-! ## Building blocks -/

/-- Whether a term is a type of values, and none of the building blocks of hints. -/
def isPlain : Term → Bool
  | .nothing => true
  | .general n => !isBuildingBlock n
  | .declared _ => true
  | .quoted _ => false
  | .reference _ _ => false
  | .dots => false
  | .applied n _ => !isBuildingBlock n
  | .union plain _ => plain
  | .choice _ => false
  | .remarked _ _ => false
  | .demanded _ _ => false

/-- Whether a term is the type of null. -/
def isNothing : Term → Bool
  | .nothing => true
  | _ => false

/-- A term inside a building block: a name in quotation marks is to be looked up. -/
def converted (place : Option String) : Term → Term
  | .quoted n => .reference n place
  | t => t

/-- A term as an argument of a building block; marks on a field are an argument only of few. -/
def argument (place : Option String) (allowsMarks : Bool) (t : Term) : Except SourceError Term :=
  match t.converted place with
  | .general n =>
      if isIncomplete n && !(allowsMarks && isFieldMark n) then .error .mismatch
      else .ok (.general n)
  | .applied n args =>
      if isFieldMark n && !allowsMarks then .error .mismatch else .ok (.applied n args)
  | t => .ok t

/-! ## Composition -/

/-- The members of a union, or the term itself. -/
def members : Term → List Term
  | .union _ ms => ms
  | t => [t]

/-- Terms without those that came before. -/
def distinct (ts : List Term) : List Term :=
  ts.foldl (fun done t => if done.any (same t) then done else done ++ [t]) []

/-- The union of terms that are fit for it. -/
def joined (isPlain : Bool) (ts : List Term) : Except SourceError Term :=
  match distinct (ts.flatMap members) with
  | [] => .error .mismatch
  | [t] => .ok t
  | ms => .ok (.union isPlain ms)

/-- The union of terms. -/
def unionOf (ts : List Term) : Except SourceError Term := do
  joined false (← ts.mapM (argument none false))

/-- Whether a term can stand beside a bar next to anything. -/
def joinsAnything : Term → Bool
  | .quoted _ => false
  | .dots => false
  | t => !t.isPlain

/-- Two terms with a bar between them. -/
def bar (t u : Term) : Except SourceError Term :=
  if t.joinsAnything || u.joinsAnything then unionOf [t, u]
  else if t.isPlain && u.isPlain && !(t.isNothing && u.isNothing) then joined true [t, u]
  else .error .mismatch

/-- A term with more remarks. -/
def remark (t : Term) (remarks : List Json) : Term :=
  match t with
  | .remarked base earlier => .remarked base (earlier ++ remarks)
  | t => .remarked t remarks

/-- A term without the demand around it. -/
def withoutDemand : Term → Term
  | .demanded _ base => base
  | t => t

/-- A term without the remarks around it, and the remarks. -/
def splitRemarks : Term → Term × List Json
  | .remarked base remarks => (base, remarks)
  | t => (t, [])

/-- A union without the type of null, and whether it was there. -/
def splitOptional : Term → Term × Bool
  | .union isPlain ms =>
      if ms.any isNothing then
        match ms.filter fun m => !m.isNothing with
        | [t] => (t, true)
        | rest => (.union false rest, true)
      else (.union isPlain ms, false)
  | t => (t, false)

/-! ## Names -/

/-- A text between quotation marks. -/
def shown (text : String) : String := String.ofList (Text.quoted text.toList)

/-- What a message calls a term that is not described. -/
def callName : Term → String
  | .nothing => "NoneType"
  | .general n => Sources.callName n
  | .declared _ => "type"
  | .quoted n => shown n
  | .reference n none => "ForwardRef(" ++ shown n ++ ")"
  | .reference n (some place) => "ForwardRef(" ++ shown n ++ ", module=" ++ shown place ++ ")"
  | .dots => "Ellipsis"
  | .applied n _ => Sources.callName n
  | .union _ _ => "Union"
  | .choice cs =>
      "typing.Literal[" ++ (if cs.isEmpty then "()" else ", ".intercalate (cs.map Constant.display))
        ++ "]"
  | .remarked _ _ => "Annotated"
  | .demanded true _ => "Required"
  | .demanded false _ => "NotRequired"

end Term

end RouteContract.Sources
