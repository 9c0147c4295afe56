import RouteContract.Contract.Action
import RouteContract.Exchange.Message
import RouteContract.Schema.Checker

/-!
# Checking requests and responses

The contract of an action is made ready as four checkers. The three parts of a request are checked
one after the other and all of them are reported; a response has one part. Checking changes nothing:
the coerced parts are part of the answer.
-/

namespace RouteContract

set_option autoImplicit false

open Schema

/-- The checkers of an action. -/
structure ActionCheckers where
  params : Checker
  query : Checker
  body : Checker
  response : Checker

/-- Make the contract of an action ready. -/
def ActionCheckers.ofAction (a : Action) : Except Fault ActionCheckers := do
  let params ← Checker.compile (.obj a.params)
  let query ← Checker.compile (.obj a.query)
  let body ← Checker.compile (.obj a.body)
  let response ← Checker.compile (.obj a.returns)
  return ⟨params, query, body, response⟩

/-- What is reported about one part of a message. -/
structure PartReport where
  source : String
  errors : List Entry

/-- A report as a document. -/
def PartReport.toJson (r : PartReport) : Json :=
  .obj [("source", .str r.source), ("errors", .arr (r.errors.map Entry.toJson))]

/-- Reports as a document. -/
def reportsJson (reports : List PartReport) : Json := .arr (reports.map PartReport.toJson)

/-- The report about a part, if there is anything to report. -/
def partReport (source : String) (o : Outcome) : List PartReport :=
  if o.isValid then [] else [⟨source, o.errors⟩]

/-- What checking a request came to: the reports, and the coerced parts. -/
structure RequestCheck where
  reports : List PartReport
  body : Json
  params : Json
  query : Json

/-- A request is valid when nothing is reported about it. -/
def RequestCheck.isValid (c : RequestCheck) : Bool := c.reports.isEmpty

/-- Check a request. -/
def ActionCheckers.checkRequest (c : ActionCheckers) (r : Request) : Except Fault RequestCheck := do
  let body ← c.body.check r.body
  let params ← c.params.check r.params
  let query ← c.query.check r.query
  return ⟨partReport "body" body ++ partReport "params" params ++ partReport "query" query,
    body.value, params.value, query.value⟩

/-- Check the body of a response. -/
def ActionCheckers.checkResponse (c : ActionCheckers) (r : Response) :
    Except Fault (List PartReport) := do
  let body ← c.response.check r.body
  return partReport "body" body

/-- Check a request to an action. -/
def Action.checkRequest (a : Action) (r : Request) : Except Fault RequestCheck := do
  (← ActionCheckers.ofAction a).checkRequest r

/-- Check a response of an action. -/
def Action.checkResponse (a : Action) (r : Response) : Except Fault (List PartReport) := do
  (← ActionCheckers.ofAction a).checkResponse r

end RouteContract
