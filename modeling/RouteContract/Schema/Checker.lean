import RouteContract.Schema.Coercion
import RouteContract.Schema.Evaluation
import RouteContract.Schema.Report

/-!
# Checking values

A checker is a schema made ready for values. It coerces a value, evaluates the coerced value, and
answers with that value and the report about it. Main definitions: `violations`, plain evaluation of
a value as it stands, and `Checker.check`, the whole of it.
-/

namespace RouteContract.Schema

set_option autoImplicit false

open RouteContract

/-- The violations of a schema by a value as it stands. The schema is read in `Dialect.draft7`,
whatever dialect it names itself. -/
def violations (schema v : Json) : Except Fault (List Violation) :=
  match ownAddress? schema with
  | .error e => .error e
  | .ok own =>
      let address := own.getD ""
      let scope : Scope := ⟨schema, address⟩
      match schema with
      | .obj members => applyAll .draft7 .draft7 scope scope.chainLimit false address members v
      | _ => descend .draft7 scope scope.chainLimit false address none none schema v

/-- The coerced value and the report about it. -/
structure Outcome where
  value : Json
  errors : List Entry

/-- A value is valid when there is nothing to report. -/
def Outcome.isValid (o : Outcome) : Bool := o.errors.isEmpty

/-- A schema made ready for values. -/
structure Checker where
  schema : Json

/-- Make a schema ready. What is no schema at all is refused here. -/
def Checker.compile (schema : Json) : Except Fault Checker :=
  (ownAddress? schema).map fun _ => ⟨schema⟩

/-- Coerce and evaluate a value. -/
def Checker.check (c : Checker) (v : Json) : Except Fault Outcome :=
  match coerce c.schema v with
  | .error e => .error e
  | .ok coerced =>
      match violations c.schema coerced with
      | .error e => .error e
      | .ok found => (report found).map (⟨coerced, ·⟩)

end RouteContract.Schema
