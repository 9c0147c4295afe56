import Mathlib
import RouteContract.Proofs.Number.Numeral
import RouteContract.Proofs.Schema.Reporting

/-!
# Checking comes to an outcome

Under a well-formed schema a check answers with an outcome and not with a fault: what is wrong with
a value is said in a report (`check_outcome`). The exception is a value that coercion chokes on, a
text where a schema declares an integer or an integer where it declares a text. Otherwise coercion
takes each text by itself: it is left unchanged or becomes a value that the keyword `type` accepts. A
text that no rule applies to is left for that keyword, which reports it at its place.
-/

set_option autoImplicit false

namespace RouteContract.Schema

open RouteContract Json Pointer Relation

/-- A text in a value that is not of a type that is declared for it, and that no rule of coercion
turns into one. -/
def IsMistyped (root v : Json) (steps : List Step) (s : String) : Prop :=
  ∃ keywords x, Governs root root v steps keywords (.str s) ∧
    Table.get? keywords "type" = some x ∧ IsUncoercible keywords s ∧
    (declaredTypes x).any (admitsDeclared (.str s)) = false

variable {root v w : Json} {steps : List Step} {s : String}

/-- A mistyped text is left where it is. -/
theorem IsMistyped.coerced (mistyped : IsMistyped root v steps s)
    (coerced : coerce root v = .ok w) : w.at? steps = some (.str s) ∧ IsMistyped root w steps s := by
  obtain ⟨keywords, x, governs, stated, uncoercible, refused⟩ := mistyped
  obtain ⟨u, done, further⟩ := text_coerced governs (.self _ root) coerced
  rw [coerceType_of_isUncoercible uncoercible, Except.ok.injEq] at done
  subst done
  exact ⟨further.at?_eq, keywords, x, further, stated, uncoercible, refused⟩

/-- A mistyped text is reported at its place. -/
theorem IsMistyped.reported (manageable : IsManageable root v) (apart : KeepsPatternsApart root)
    (mistyped : IsMistyped root v steps s) {found : List Violation} {entries : List Entry}
    (evaluated : violations root v = .ok found) (reported : report found = .ok entries) :
    ∃ entry ∈ entries, entry.keyword = "type" ∧ entry.instancePath = Pointer.ofSteps steps := by
  obtain ⟨keywords, x, governs, stated, -, refused⟩ := mistyped
  obtain ⟨found', same, e, among, keyword, path⟩ :=
    type_found manageable apart governs stated refused
  rw [evaluated] at same
  cases same
  obtain ⟨entry, listed, named, -, place⟩ :=
    exists_entry reported among keyword (by decide) (by decide)
  exact ⟨entry, listed, named, path ▸ place⟩

/-- What a node with an even count states about its count. -/
def countKeywords : List (String × Json) := [("type", .str "integer"), ("multipleOf", .int 2)]

/-- Nodes with even counts, each of which may have a next one. -/
def nodeKeywords : List (String × Json) :=
  [("type", .str "object"),
    ("properties", .obj [("count", .obj countKeywords), ("next", .obj [("$ref", .str "#")])])]

/-- A node, as a schema document. -/
def nodeSchema : Json := .obj nodeKeywords

end RouteContract.Schema
