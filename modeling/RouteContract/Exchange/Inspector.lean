import RouteContract.Data.Identity
import RouteContract.Exchange.Checking

/-!
# Inspectors

An inspector makes the contract of an action ready when it first sees the action, and keeps the
checkers. Actions are told apart by identity: two of equal content are made ready one by one. So are
the sets of checkers, which are numbered by the schemas that were made ready before.
-/

namespace RouteContract

set_option autoImplicit false

open Schema

/-- An action that is one among several of perhaps equal content. -/
structure HeldAction where
  identity : Identity
  action : Action

/-- The checkers that were made for an action at one time. The number tells them from those that
were made at any other time. -/
structure CheckerSet where
  number : Nat
  checkers : ActionCheckers

/-- The checkers that were made, and the number of schemas made ready for them. -/
structure Inspector where
  known : IdentityMemory CheckerSet
  compiled : Nat

namespace Inspector

/-- An inspector that has seen no action. -/
def fresh : Inspector := ⟨.empty, 0⟩

/-- The number of schemas that are made ready for an action, the first unusable one included. -/
def schemaCount (a : Action) : Nat :=
  let schemas := [a.params, a.query, a.body, a.returns]
  let usable := (schemas.takeWhile fun s => (Checker.compile (.obj s)).isOk).length
  min (usable + 1) schemas.length

/-- The checkers of an action, made ready if they are not known. -/
def checkersOf (i : Inspector) (a : HeldAction) : Except Fault CheckerSet × Inspector :=
  match i.known.get? a.identity with
  | some set => (.ok set, i)
  | none =>
      let compiled := i.compiled + schemaCount a.action
      match ActionCheckers.ofAction a.action with
      | .ok c =>
          let set : CheckerSet := ⟨i.compiled, c⟩
          (.ok set, ⟨i.known.put a.identity set, compiled⟩)
      | .error e => (.error e, { i with compiled := compiled })

/-- Check a request to an action. -/
def checkRequest (i : Inspector) (a : HeldAction) (r : Request) :
    Except Fault RequestCheck × Inspector :=
  let (set, i) := i.checkersOf a
  (set.bind (·.checkers.checkRequest r), i)

/-- Check a response of an action. -/
def checkResponse (i : Inspector) (a : HeldAction) (r : Response) :
    Except Fault (List PartReport) × Inspector :=
  let (set, i) := i.checkersOf a
  (set.bind (·.checkers.checkResponse r), i)

end Inspector

end RouteContract
