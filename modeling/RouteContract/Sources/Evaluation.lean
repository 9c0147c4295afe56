import RouteContract.Sources.Hint
import RouteContract.Sources.Term

/-!
# The meaning of hints

A hint means a term in a scope, the names that a module has bound so far. Names in quotation marks
stay in a term and are resolved later, when all names of the module are there; a name that leads
back to itself in doing so stays as it is.
-/

namespace RouteContract.Sources

set_option autoImplicit false

open RouteContract

/-- The names that a module has bound, and the members of its enumerations. -/
structure Scope where
  names : Table Term
  members : List (ClassId × Table Constant)

namespace Scope

/-- What a name stands for: what the module has bound to it, or what it means everywhere. -/
def lookup? (s : Scope) (name : String) : Option Term :=
  match Table.get? s.names name with
  | some t => some t
  | none =>
      if name = "..." then some .dots
      else if isGeneral name then some (.general (canonicalName name))
      else none

/-- What a name stands for. -/
def lookup (s : Scope) (name : String) : Except SourceError Term :=
  match s.lookup? name with
  | some t => .ok t
  | none => .error (.unknownName name)

/-- A member of an enumeration. -/
def member (s : Scope) (enumeration name : String) : Except SourceError Constant := do
  match ← s.lookup enumeration with
  | .declared c =>
      let members := ((s.members.find? fun e => e.1 == c).map (·.2)).getD []
      match Table.get? members name with
      | some m => .ok m
      | none => .error (.unknownMember name)
  | _ => .error (.unknownMember name)

end Scope

/-! ## Evaluation -/

mutual
/-- The constants that a written one stands for. -/
def WrittenConstant.evaluate (s : Scope) : WrittenConstant → Except SourceError (List Constant)
  | .value v => .ok [.value v]
  | .bytes text => .ok [.bytes text]
  | .member enumeration name => (s.member enumeration name).map fun c => [c]
  | .group constants => (WrittenConstant.evaluateAll s constants).map distinctConstants

/-- The constants that several written ones stand for. -/
def WrittenConstant.evaluateAll (s : Scope) :
    List WrittenConstant → Except SourceError (List Constant)
  | [] => .ok []
  | c :: rest => do
      let first ← WrittenConstant.evaluate s c
      return first ++ (← WrittenConstant.evaluateAll s rest)
end

/-- A general name with arguments. -/
def applyGeneral (name : String) (arguments : List Term) : Except SourceError Term :=
  if name = "typing.Union" then Term.unionOf arguments
  else if name = "typing.Optional" then
    match arguments with
    | [t] => Term.unionOf [t, .nothing]
    | _ => .error .mismatch
  else if isBuildingBlock name then do
    return .applied name (← arguments.mapM (Term.argument none false))
  else
    match standing name with
    | .scalar _ => .error .mismatch
    | .any => .error .mismatch
    | _ => .ok (.applied name arguments)

mutual
/-- What a hint means in a scope. -/
def Hint.evaluate (s : Scope) : Hint → Except SourceError Term
  | .nothing => .ok .nothing
  | .named n => s.lookup n
  | .quoted n => .ok (.quoted n)
  | .applied n arguments => do
      let head ← s.lookup n
      let arguments ← Hint.evaluateAll s arguments
      match head with
      | .general name => applyGeneral name arguments
      | _ => .error .mismatch
  | .union ms => do Term.unionOf (← Hint.evaluateAll s ms)
  | .either ms => do
      match ← Hint.evaluateAll s ms with
      | [] => .error .mismatch
      | t :: rest => rest.foldlM Term.bar t
  | .optional h => do Term.unionOf [← Hint.evaluate s h, .nothing]
  | .choice constants => do
      return .choice (distinctConstants (← WrittenConstant.evaluateAll s constants))
  | .remarked h remarks => do
      let t ← (← Hint.evaluate s h).argument none true
      if remarks.isEmpty then .error .mismatch else .ok (t.remark remarks)
  | .demanded isRequired h => do
      return .demanded isRequired (← (← Hint.evaluate s h).argument none true)
  | .request parts => do
      let parts ← Hint.evaluateAll s parts
      if parts.length = 3 then .ok (.applied "Request" (parts.map (Term.converted none)))
      else .error .mismatch
  | .callable parts => do
      return .applied "typing.Callable" ((← Hint.evaluateAll s parts).map (Term.converted none))

/-- What several hints mean, one after the other. -/
def Hint.evaluateAll (s : Scope) : List Hint → Except SourceError (List Term)
  | [] => .ok []
  | h :: rest => do
      let t ← Hint.evaluate s h
      return t :: (← Hint.evaluateAll s rest)
end

/-! ## Resolution -/

mutual
/-- A term with its names in quotation marks resolved in a given way. -/
def Term.resolveBy (resolve : Term → String → Except SourceError Term) :
    Term → Except SourceError Term
  | .quoted n => resolve (.reference n none) n
  | .reference n place => resolve (.reference n place) n
  | .applied name arguments => do
      return .applied name (← Term.resolveAllBy resolve arguments)
  | .union isPlain ms => do
      let ms ← Term.resolveAllBy resolve ms
      if isPlain then Term.joined true ms else Term.unionOf ms
  | .remarked base remarks => do return (← Term.resolveBy resolve base).remark remarks
  | .demanded isRequired base => do return .demanded isRequired (← Term.resolveBy resolve base)
  | .nothing => .ok .nothing
  | .general name => .ok (.general name)
  | .declared c => .ok (.declared c)
  | .dots => .ok .dots
  | .choice constants => .ok (.choice constants)

/-- Several terms with their names in quotation marks resolved. -/
def Term.resolveAllBy (resolve : Term → String → Except SourceError Term) :
    List Term → Except SourceError (List Term)
  | [] => .ok []
  | t :: rest => do
      let t ← Term.resolveBy resolve t
      return t :: (← Term.resolveAllBy resolve rest)
end

/-- What a name in quotation marks stands for when the names on the way to it are open. An open name
stays as it is. -/
def Scope.resolveName (s : Scope) (allowsMarks : Bool) :
    Nat → List String → Term → String → Except SourceError Term
  | 0, _, asIs, _ => .ok asIs
  | steps + 1, open', asIs, name =>
      if open'.contains name then .ok asIs
      else do
        let t ← (← s.lookup name).argument none allowsMarks
        t.resolveBy (s.resolveName false steps (name :: open'))

/-- A term with its names in quotation marks resolved. Every name that is opened on the way is
another one, so that there are no more steps than names in the module and one general name. -/
def Scope.resolve (s : Scope) (allowsMarks : Bool) (t : Term) : Except SourceError Term :=
  t.resolveBy (s.resolveName allowsMarks (s.names.length + 2) [])

end RouteContract.Sources
