import RouteContract.Number.Numeral
import RouteContract.Sources.Lineage

/-!
# Enumerations

An enumeration has members of a name and a value. Its members may also be integers, texts or
floating-point numbers by themselves, and its values are then turned into such. A member whose value
equals that of an earlier one is another name for it. The members of a set of flags are those of a
single bit.
-/

namespace RouteContract.Sources

set_option autoImplicit false

open RouteContract Number

/-- What the members of an enumeration are beside members. -/
inductive MemberKind where
  | plain
  | integer
  | text
  /-- A text whose value has to be one. -/
  | strictText
  | float
deriving Repr, DecidableEq

/-- What the members of an enumeration with a lineage are. -/
def MemberKind.ofLineage (l : Lineage) : MemberKind :=
  let has (name : String) : Bool := l.contains (.general name)
  if has "StrEnum" then .strictText
  else if has "IntEnum" || has "IntFlag" || has "int" then .integer
  else if has "str" then .text
  else if has "float" then .float
  else .plain

/-- Whether an enumeration with a lineage is a set of flags. -/
def isFlagSet (l : Lineage) : Bool :=
  l.contains (.general "Flag") || l.contains (.general "IntFlag")

/-! ## Values -/

/-- A value as an integer. -/
def integerValue : Json → Except SourceError Json
  | .int i => .ok (.int i)
  | .bool b => .ok (.int (if b then 1 else 0))
  | .float x =>
      match x.toRat? with
      | some r => .ok (.int (r.num.tdiv r.den))
      | none => .error .unfitValue
  | .str s =>
      match readInteger s.toList with
      | .ok i => .ok (.int i)
      | .error _ => .error .unfitValue
  | _ => .error .mismatch

/-- A value as a floating-point number. -/
def floatValue : Json → Except SourceError Json
  | .int i => .ok (.float (.ofInt i))
  | .bool b => .ok (.float (.ofInt (if b then 1 else 0)))
  | .float x => .ok (.float x)
  | .str s =>
      match readFloat? s.toList with
      | some x => .ok (.float x)
      | none => .error .unfitValue
  | _ => .error .mismatch

/-- A value as members of a kind have it. -/
def MemberKind.value : MemberKind → Json → Except SourceError Json
  | .plain, v => .ok v
  | .integer, v => integerValue v
  | .text, v => .ok (.str v.displayBare)
  | .strictText, .str s => .ok (.str s)
  | .strictText, _ => .error .mismatch
  | .float, v => floatValue v

/-- Whether a natural number has a single bit. -/
def isPowerOfTwo (n : Nat) : Bool := n != 0 && n == Nat.pow 2 n.log2

/-- Whether a value is a flag of a single bit. -/
def isSingleFlag : Json → Bool
  | .int i => 0 < i && isPowerOfTwo i.toNat
  | .bool b => b
  | _ => false

/-! ## Members -/

/-- A member of an enumeration. -/
structure Member where
  name : String
  value : Json

/-- Whether a name begins and ends with two underscores, and is no member. -/
def isReserved (name : String) : Bool :=
  let s := name.toList
  4 < s.length && s.take 2 == ['_', '_'] && s.reverse.take 2 == ['_', '_']

/-- Whether a name begins with two underscores, and is no member. -/
def isPrivate (name : String) : Bool := name.toList.take 2 == ['_', '_']

/-- The first of several members whose value equals that of a member. -/
def firstEqual (ms : List Member) (m : Member) : Member :=
  (ms.find? fun n => n.value.numericallyEqual m.value).getD m

/-- The members of an enumeration; each entry of a name of its own. -/
def membersOf (kind : MemberKind) (entries : List (String × Json)) :
    Except SourceError (List Member) :=
  if (entries.map Prod.fst).Nodup then
    (entries.filter fun e => !(isReserved e.1 || isPrivate e.1)).mapM fun e =>
      (kind.value e.2).map fun v => ⟨e.1, v⟩
  else .error .mismatch

/-- The values of an enumeration in order, each once. -/
def enumerationValues (isFlags : Bool) (ms : List Member) : List Json :=
  let own := ms.filter fun m => (firstEqual ms m).name == m.name
  (own.filter fun m => !isFlags || isSingleFlag m.value).map Member.value

/-- The members of an enumeration by name, as constants. -/
def memberConstants (c : ClassId) (enumeration : String) (kind : MemberKind) (ms : List Member) :
    Table Constant :=
  ms.map fun m =>
    let first := firstEqual ms m
    (m.name,
      .member c ("<" ++ enumeration ++ "." ++ first.name ++ ": " ++ first.value.display ++ ">")
        (if kind = .plain then none else some first.value))

end RouteContract.Sources
