import RouteContract.Proofs.Contract.Document
import RouteContract.Proofs.Shape.Guarded
import RouteContract.Proofs.Shape.Verdict
import RouteContract.Schema.Checker

/-!
# Enumerations

An enumeration is compiled to the list of its values under one kind, that of the first value: under
the kind of numbers when that is a number, and under the kind of texts otherwise. A value passes
when it is of that kind and equals a listed one. So an enumeration admits exactly its values when
all of them are numbers or all of them are texts, and in no other case
(`Graph.enumeration_admits`): a listed value of another kind is refused by the list it stands in.
-/

set_option autoImplicit false

namespace RouteContract.Shape

open RouteContract Schema

variable {values : List Json} {v : Json}

/-- The kind under which values are listed. Only the first one is asked, and whatever is no number
counts as a text. -/
def listingKind : List Json → ScalarKind
  | [] => .string
  | first :: _ => if first.quantity?.isSome then .number else .string

theorem enumerationSchema_eq (some : values ≠ []) :
    enumerationSchema values =
      .obj [("type", .str (listingKind values).name), ("enum", .arr values)] := by
  cases values with
  | nil => exact absurd rfl some
  | cons first rest =>
      rw [enumerationSchema, listingKind]
      split <;> rfl

/-- A finite scalar equals itself. The number that is undefined does not. -/
theorem equal_self {kind : ScalarKind} (finite : v.isFinite = true)
    (scalar : kind.admits v = true) : Json.equal v v = true := by
  cases kind with
  | string =>
      obtain ⟨s, rfl⟩ := admits_string_iff.1 scalar
      exact Json.equal_str_iff.2 rfl
  | boolean =>
      obtain ⟨b, rfl⟩ := admits_boolean_iff.1 scalar
      exact Json.equal_bool_iff.2 rfl
  | number =>
      rw [Json.equal, Json.equalBy_number (admits_number_iff.1 scalar)]
      cases v with
      | int i => exact beq_self_eq_true (i : Rat)
      | float x =>
          cases x with
          | finite negative m => exact beq_self_eq_true _
          | infinite negative | undefined => cases finite
      | null | bool b | str s | arr items | obj members => cases scalar

/-- Evaluation against a list of values under a kind, whatever the values are. -/
theorem violations_listed (kind : ScalarKind) (values : List Json) (v : Json) :
    (violations (.obj [("type", .str kind.name), ("enum", .arr values)]) v = .ok [] ↔
        kind.admits v = true ∧ ∃ value ∈ values, Json.equal value v = true) ∧
      ((∃ fault,
          violations (.obj [("type", .str kind.name), ("enum", .arr values)]) v = .error fault) ↔
        kind.admits v = false ∧ v.isWritable = false ∨
          (¬ ∃ value ∈ values, Json.equal value v = true) ∧
            (v.isWritable && (Json.arr values).isWritable) = false) := by
  have decided : Decides _ _
      (violations (.obj [("type", .str kind.name), ("enum", .arr values)]) v) :=
    decides_kindAndList kind
  refine ⟨decided.nil_iff ?_, decided.error_iff⟩
  rintro (⟨other, -⟩ | ⟨unlisted, -⟩) ⟨ofKind, listed⟩
  · exact Bool.false_ne_true (other.symm.trans ofKind)
  · exact unlisted listed

/-- **An enumeration admits the values of one kind that it lists.** Evaluation against its schema
finds nothing exactly about a value that equals a listed one and is of the kind of the first one.
That is every value that equals a listed one only where all of them are of that kind. Evaluation has
a fault only where it is to show what has no text: a value of another kind, or a value that is not
listed together with the list. -/
theorem Graph.enumeration_admits (g : Graph) {t : TypeId} {name : String}
    (shape : g.shape t = .enumeration values name) (some : values ≠ [])
    (scalar : ∀ value ∈ values,
      value.isFinite = true ∧ ∃ kind : ScalarKind, kind.admits value = true)
    (path : List String) (visited : Visited) :
    ∃ s, g.compile t path visited = .ok s ∧
      (∀ v,
        (violations s v = .ok [] ↔ (listingKind values).admits v = true ∧
          ∃ value ∈ values, Json.equal value v = true) ∧
        ((∃ fault, violations s v = .error fault) ↔
          (listingKind values).admits v = false ∧ v.isWritable = false ∨
            (¬ ∃ value ∈ values, Json.equal value v = true) ∧
              (v.isWritable && (Json.arr values).isWritable) = false)) ∧
      ((∀ v, violations s v = .ok [] ↔ ∃ value ∈ values, Json.equal value v = true) ↔
        ∀ value ∈ values, (listingKind values).admits value = true) := by
  have compiled : g.compile t path visited = .ok (enumerationSchema values) :=
    compile_iff_expands.2 (by rw [Expands, shape])
  refine ⟨_, compiled, ?_⟩
  rw [enumerationSchema_eq some]
  have verdict := violations_listed (listingKind values) values
  refine ⟨verdict, ?_, ?_⟩
  · intro exactly value listed
    obtain ⟨finite, kind, admitted⟩ := scalar value listed
    have passed := (exactly value).2 ⟨value, listed, equal_self finite admitted⟩
    exact ((verdict value).1.1 passed).1
  · intro alike v
    rw [(verdict v).1]
    refine and_iff_right_of_imp ?_
    rintro ⟨value, listed, same⟩
    exact (listingKind values).admits_of_equal (alike value listed) same

/-! ## Values of several kinds -/

/-- A number, a text and a boolean as the values of one enumeration. -/
def mixedValues : List Json := [.int 1, .str "a", .bool true]

/-- The enumeration of them. -/
def mixedGraph : Graph := ⟨#[⟨.enumeration mixedValues "Mixed", none⟩]⟩

/-- **Of several kinds only the first is admitted**: the number is, written as it is listed or with
a fraction of zero, and the text and the boolean are not. -/
theorem mixedGraph_admits :
    ∃ s, mixedGraph.compile 0 [] [] = .ok s ∧
      violations s (.float (Number.Binary64.ofInt 1)) = .ok [] ∧
      violations s (.str "a") ≠ .ok [] ∧ violations s (.bool true) ≠ .ok [] ∧
      ¬ ∀ v, violations s v = .ok [] ↔ ∃ value ∈ mixedValues, Json.equal value v = true := by
  have scalar : ∀ value ∈ mixedValues,
      value.isFinite = true ∧ ∃ kind : ScalarKind, kind.admits value = true := by
    simp only [mixedValues, List.mem_cons, List.not_mem_nil, or_false, forall_eq_or_imp, forall_eq]
    exact ⟨⟨rfl, .number, rfl⟩, ⟨rfl, .string, rfl⟩, ⟨rfl, .boolean, rfl⟩⟩
  have shape : mixedGraph.shape 0 = .enumeration mixedValues "Mixed" := rfl
  obtain ⟨s, compiled, verdict, alike⟩ := mixedGraph.enumeration_admits shape nofun scalar [] []
  have passes {v : Json} := (verdict v).1
  refine ⟨s, compiled, passes.2 ⟨rfl, .int 1, List.mem_cons_self .., by decide +kernel⟩, ?_, ?_, ?_⟩
  · exact fun passed => Bool.false_ne_true (passes.1 passed).1
  · exact fun passed => Bool.false_ne_true (passes.1 passed).1
  · exact fun every => Bool.false_ne_true (alike.1 every (.str "a") (by simp [mixedValues]))

end RouteContract.Shape
