import RouteContract.Proofs.Number.Rounding
import RouteContract.Proofs.Schema.Coercion
import RouteContract.Proofs.Schema.Dispatch
import RouteContract.Proofs.Schema.Meeting
import RouteContract.Schema.Report

/-!
# Well-formed schemas

A schema document is well formed when each of its schemas is of the dialect of the document and
states what its keywords can use, its references are local and lead somewhere, and none of them
comes back to where it started without a part of the value being taken (`IsWellFormed`). Where a
keyword can use what it is given, it answers (`Assertion.failures_answers`), unless it has to divide
numbers or read patterns that are beyond the limits of numbers (`Assertion.copes`), or to show an
integer that has no text; and what such keywords refuse can be reported (`report_answers`).
-/

set_option autoImplicit false

namespace RouteContract.Schema

open RouteContract Json Number

/-! ## What keywords can use -/

/-- Whether a value is the name of a type. -/
def isTypeName : Json → Bool
  | .str name => (TypeName.ofText? name).isSome
  | _ => false

/-- Whether a value is a list of texts. -/
def isTextList : Json → Bool
  | .arr items => items.all (·.text?.isSome)
  | _ => false

/-- Whether a text is a pattern. -/
def isPattern (source : String) : Bool := (readPattern source).isOk

/-- Whether a keyword that looks at a value by itself can use what a schema states under it. -/
def Assertion.canUse (x : Json) : Assertion → Bool
  | .type | .strictType => (declaredTypes x).all isTypeName
  | .enumeration => x.items?.isSome
  | .multipleOf =>
      match x with
      | .int d => d != 0
      | .float d => d.isFinite && !d.isZero
      | _ => false
  | .pattern => x.text?.any isPattern
  | .format => x.text?.isSome
  | .required => isTextList x
  | .constant | .uniqueItems => true
  | .minimum | .maximum | .exclusiveMinimum | .exclusiveMaximum | .minLength | .maxLength
  | .minItems | .maxItems | .minProperties | .maxProperties => x.quantity?.isSome

/-- Whether a keyword can use what a schema states under it, the subschemas themselves apart. -/
def canUse (keyword : String) (x : Json) : Bool :=
  match Assertion.ofKeyword? keyword with
  | some assertion => assertion.canUse x
  | none =>
      if listKeywords.contains keyword then x.items?.isSome
      else if keyword = "items" then
        match x with
        | .arr _ | .obj _ | .bool _ => true
        | _ => false
      else if keyword = "properties" then x.members?.isSome
      else if keyword = "patternProperties" then x.members?.any fun subs => subs.all (isPattern ·.1)
      else if keyword = "dependencies" then
        x.members?.any fun subs => subs.all fun entry => entry.2.items?.isNone || isTextList entry.2
      else true

/-- A schema of a document is a boolean, a local reference that leads somewhere, or an object with
keywords that can use what is stated under them. -/
def IsSound (root : Json) : Json → Prop
  | .bool _ => True
  | .obj keywords =>
      match Table.get? keywords "$ref" with
      | none => ∀ entry ∈ keywords, canUse entry.1 entry.2 = true
      | some x => ∃ ref target, x = .str ref ∧ LeadsTo root ref target
  | _ => False

/-- What a schema without a reference states can be used. -/
theorem IsSound.usable {root : Json} {keywords : List (String × Json)}
    (sound : IsSound root (.obj keywords)) (plain : Table.get? keywords "$ref" = none) :
    ∀ entry ∈ keywords, canUse entry.1 entry.2 = true := by
  rw [IsSound, plain] at sound
  exact sound

theorem IsSound.leads {root x : Json} {keywords : List (String × Json)}
    (sound : IsSound root (.obj keywords)) (stated : Table.get? keywords "$ref" = some x) :
    ∃ ref target, x = .str ref ∧ LeadsTo root ref target := by
  rw [IsSound, stated] at sound
  exact sound

/-- A well-formed schema document. -/
structure IsWellFormed (root : Json) : Prop where
  sound : ∀ schema, Stands root schema → IsSound root schema
  acyclic : IsAcyclic root
  /-- What a schema gives as its address is a text, if it gives any. -/
  addressed : ∀ schema, Stands root schema → ∃ own, ownAddress? schema = .ok own
  /-- No schema names another dialect as its own. -/
  native : ∀ schema, Stands root schema → Dialect.draft7.inside schema = .ok .draft7

/-- A schema document without what makes the evaluation of well-formed schemas fail: references of a
document inside the document, a boolean that is asked for its length, and patterns that are none
when they are joined. -/
structure IsTame (root : Json) : Prop where
  enclosed : ∀ keywords own, Stands root (.obj keywords) → .obj keywords ≠ root →
    ownAddress? (.obj keywords) = .ok (some own) → Lacks "$ref" (.obj keywords)
  counted : ∀ keywords b, Stands root (.obj keywords) →
    Table.has keywords "additionalItems" = true → Table.get? keywords "items" ≠ some (.bool b)
  joined : ∀ keywords patterns, Stands root (.obj keywords) →
    Table.has keywords "additionalProperties" = true → joinedPatterns keywords = .ok patterns →
      patterns.isEmpty = true ∨ isPattern patterns = true

/-- Whether a number can be divided by another one: a floating-point number must be finite, and an
integer beside one must not be larger than all of them. -/
def canDivide : Json → Json → Bool
  | .int i, .float _ => (Binary64.ofInt i).isFinite
  | .float x, .float _ => x.isFinite
  | .float _, .int d => (Binary64.ofInt d).isFinite
  | _, _ => true

/-- Whether it can be told of a text if it is a pattern: no number in it is beyond the limits. -/
def isLegible (source : List Char) : Bool :=
  match Pattern.read {} source with
  | .ok _ => true
  | .error .malformed => true
  | .error _ => false

/-- Whether a value is not too large for a keyword. -/
def Assertion.copes (x v : Json) : Assertion → Bool
  | .multipleOf => canDivide v x
  | .format =>
      match x, v with
      | .str name, .str s => name != "regex" || isLegible s.toList
      | _, _ => true
  | _ => true

/-- Nothing in a value is too large for a keyword that is to look at it, or for a message that is to
show it. -/
structure IsModerate (root whole : Json) : Prop where
  copes : ∀ keywords v keyword x assertion, Meets root whole (.obj keywords) v →
    Table.get? keywords "$ref" = none → (keyword, x) ∈ keywords →
      Assertion.ofKeyword? keyword = some assertion → assertion.copes x v = true
  stated : root.isWritable = true
  shown : whole.isWritable = true

/-! ## Keywords answer -/

/-- A result that is no fault. -/
def Answers {α : Type} (r : Except Fault α) : Prop := ∃ a, r = .ok a

theorem Answers.ok {α : Type} (a : α) : Answers (.ok a) := ⟨a, rfl⟩

theorem Answers.map {α β : Type} {r : Except Fault α} (h : Answers r) (f : α → β) :
    Answers (r.map f) := by
  obtain ⟨a, rfl⟩ := h
  exact ⟨f a, rfl⟩

section Findings

variable {α : Type} {verdict : Except Fault Bool} {shown : List Json} {finding : α}

/-- What can be shown is. -/
theorem showing_answers (written : shown.all isWritable = true) :
    Answers (showing shown finding) := by
  rw [showing, if_pos written]
  exact .ok _

theorem refuteWhen_answers (h : Answers verdict) (written : shown.all isWritable = true) :
    Answers (refuteWhen verdict shown finding) := by
  obtain ⟨_ | _, rfl⟩ := h
  · exact .ok []
  · exact showing_answers written

theorem refuteUnless_answers (h : Answers verdict) (written : shown.all isWritable = true) :
    Answers (refuteUnless verdict shown finding) := refuteWhen_answers (h.map _) written

end Findings

section Keywords

variable {x v : Json}

theorem typeNames_of_canUse (usable : (declaredTypes x).all isTypeName = true) :
    typeNames x = .ok (declaredTypes x) := by
  cases x with
  | str name | arr types => rfl
  | null | bool b | int i | float y | obj members => cases usable

theorem isOfSomeType_answers {types : List Json} (usable : types.all isTypeName = true)
    (admits : TypeName → Json → Bool) (v : Json) : Answers (isOfSomeType admits v types) := by
  induction types with
  | nil => exact .ok false
  | cons declared rest ih =>
      rw [List.all_cons, Bool.and_eq_true] at usable
      cases declared with
      | str name =>
          obtain ⟨type, named⟩ := Option.isSome_iff_exists.1 usable.1
          rw [isOfSomeType, named]
          simp only
          split
          · exact .ok true
          · exact ih usable.2
      | null | bool b | int i | float y | arr items | obj members => cases usable.1

theorem count?_of_quantity? {q : Quantity} (number : v.quantity? = some q) :
    v.count? = some q := by
  cases v with
  | int i | float y => exact number
  | null | bool b | str s | arr items | obj members => cases number

theorem compareLimit_answers (usable : x.quantity?.isSome = true) {q : Quantity}
    (number : v.quantity? = some q) (compare : Quantity → Quantity → Bool) :
    Answers (compareLimit compare v x) := by
  obtain ⟨limit, same⟩ := Option.isSome_iff_exists.1 usable
  rw [compareLimit, count?_of_quantity? number, count?_of_quantity? same]
  exact .ok _

theorem numberLimit_answers (usable : x.quantity?.isSome = true)
    (written : [v, x].all isWritable = true) (fails : Quantity → Quantity → Bool)
    (words : String) : Answers (numberLimit fails words v x) := by
  rw [numberLimit]
  split
  · exact .ok []
  · next number => exact refuteWhen_answers (compareLimit_answers usable number fails) written

theorem lengthLimit_answers (usable : x.quantity?.isSome = true)
    (written : [v].all isWritable = true) (fails : Quantity → Quantity → Bool) (special : Nat)
    (specially generally : String) (length : Option Nat) :
    Answers (lengthLimit fails special specially generally v x length) := by
  cases length with
  | none => exact .ok []
  | some n => exact refuteWhen_answers (compareLimit_answers usable rfl fails) written

/-- A finite number is divided by one that is not zero; a quotient that is too large is taken
exactly. -/
theorem failsMultipleOfFloat_answers {y d : Binary64} (number : asBinary64 v = .ok y)
    (finite : y.isFinite = true) (exactly : ∃ a, v.quantity? = some (.finite a))
    (divisor : d.isFinite = true) (nonzero : d.isZero = false) :
    Answers (failsMultipleOfFloat v d) := by
  obtain ⟨a, quantity⟩ := exactly
  rw [failsMultipleOfFloat, number]
  cases y with
  | infinite | undefined => cases finite
  | finite negative m =>
      cases d with
      | infinite | undefined => cases divisor
      | finite other n =>
          simp only [Binary64.divide?, nonzero, Bool.false_eq_true, if_false, Binary64.nearest,
            quantity, Binary64.toRat?]
          split
          · next same => cases same
          · next same => split at same <;> cases same
          · exact .ok _
          · exact .ok _

theorem asBinary64_int {i : Int} (finite : (Binary64.ofInt i).isFinite = true) :
    asBinary64 (.int i) = .ok (Binary64.ofInt i) := by
  rw [asBinary64]
  split
  · next infinite =>
      rw [infinite] at finite
      cases finite
  · rfl

theorem toRat?_of_isFinite {d : Binary64} (finite : d.isFinite = true) :
    ∃ b, d.toRat? = some b := by
  cases d with
  | finite negative m => exact ⟨_, rfl⟩
  | infinite | undefined => cases finite

/-- A floating-point number is divided by an integer that is not zero. -/
theorem failsMultipleOfInt_float_answers {d : Int} (nonzero : d ≠ 0)
    (finite : (Binary64.ofInt d).isFinite = true) (y : Binary64) :
    Answers (failsMultipleOfInt (.float y) d) := by
  obtain ⟨b, rational⟩ := toRat?_of_isFinite finite
  have positive : (b == 0) = false := beq_eq_false_iff_ne.2 (toRat?_ofInt_ne_zero nonzero rational)
  cases value : y.toRat? with
  | none =>
      simp only [failsMultipleOfInt, asBinary64_int finite, rational, value, positive]
      exact .ok true
  | some a =>
      simp only [failsMultipleOfInt, asBinary64_int finite, rational, value, positive]
      exact .ok _

theorem failsMultipleOf_answers (usable : Assertion.multipleOf.canUse x = true)
    (copes : canDivide v x = true) (isNumber : v.quantity?.isSome = true) :
    Answers (failsMultipleOf v x) := by
  cases x with
  | null | bool b | str s | arr items | obj members => cases usable
  | int d =>
      have nonzero : d ≠ 0 := bne_iff_ne.1 usable
      cases v with
      | int i =>
          rw [failsMultipleOf, failsMultipleOfInt, if_neg nonzero]
          exact .ok _
      | float y => exact failsMultipleOfInt_float_answers nonzero copes y
      | null | bool b | str s | arr items | obj members => cases isNumber
  | float d =>
      rw [Assertion.canUse, Bool.and_eq_true, Bool.not_eq_true'] at usable
      cases v with
      | int i =>
          exact failsMultipleOfFloat_answers (asBinary64_int copes) copes ⟨_, rfl⟩ usable.1 usable.2
      | float y =>
          have number : asBinary64 (.float y) = .ok y := rfl
          refine failsMultipleOfFloat_answers number copes ?_ usable.1 usable.2
          cases y with
          | finite negative m => exact ⟨_, rfl⟩
          | infinite | undefined => cases copes
      | null | bool b | str s | arr items | obj members => cases isNumber

theorem readPattern_of_isPattern {source : String} (usable : isPattern source = true) :
    Answers (readPattern source) := by
  rw [isPattern] at usable
  cases read : readPattern source with
  | ok p => exact .ok p
  | error e =>
      rw [read] at usable
      cases usable

theorem patternOccurs_answers {source : String} (usable : isPattern source = true)
    (text : String) : Answers (patternOccurs source text) :=
  (readPattern_of_isPattern usable).map _

theorem formatHolds_answers (usable : x.text?.isSome = true)
    (copes : Assertion.copes x v .format = true) : Answers (formatHolds x v) := by
  cases x with
  | null | bool b | int i | float y | arr items | obj members => cases usable
  | str format =>
      cases v with
      | null | bool b | int i | float y | arr items | obj members => exact .ok true
      | str s =>
          have holds : ∃ b, Format.holds format s.toList = .ok b := by
            rw [Format.holds]
            repeat' split
            all_goals first | exact ⟨_, rfl⟩ | skip
            next isRegex _ e other read =>
              have illegible : isLegible s.toList = false := by
                rw [isLegible, read]
                cases e with
                | malformed => exact absurd rfl other
                | hugeCount | invalidValue => rfl
              simp [Assertion.copes, isRegex, illegible] at copes
          obtain ⟨b, holds⟩ := holds
          rw [formatHolds, holds]
          exact .ok b

theorem exists_text_of_isSome {name : Json} (h : name.text?.isSome = true) :
    ∃ s, name = .str s := by
  cases name with
  | str s => exact ⟨s, rfl⟩
  | null | bool b | int i | float y | arr items | obj members => cases h

theorem isMissing_answers {name : Json} (usable : name.text?.isSome = true)
    (members : List (String × Json)) : Answers (isMissing members name) := by
  obtain ⟨s, rfl⟩ := exists_text_of_isSome usable
  exact .ok _

/-- Names are texts, and can be shown. -/
theorem missingMessages_answers {names : List Json}
    (usable : names.all (·.text?.isSome) = true) (onlyFirst : Bool) (words : String)
    (members : List (String × Json)) :
    Answers (missingMessages onlyFirst words members names) := by
  induction names with
  | nil => exact .ok []
  | cons name rest ih =>
      rw [List.all_cons, Bool.and_eq_true] at usable
      obtain ⟨s, rfl⟩ := exists_text_of_isSome usable.1
      obtain ⟨missing, asked⟩ := isMissing_answers usable.1 members
      obtain ⟨first, shown⟩ : Answers (showing [.str s] ((Json.str s).display ++ words)) :=
        showing_answers rfl
      rw [missingMessages, asked]
      cases missing with
      | false => exact ih usable.2
      | true =>
          simp only [shown]
          split
          · exact .ok _
          · exact (ih usable.2).map _

theorem exists_names_of_isTextList (h : isTextList x = true) :
    ∃ names, x = .arr names ∧ names.all (·.text?.isSome) = true := by
  cases x with
  | arr names => exact ⟨names, rfl, h⟩
  | null | bool b | int i | float y | str s | obj members => cases h

/-- A message can show the names of types. -/
theorem isWritable_of_areTypeNames {types : List Json} (known : types.all isTypeName = true) :
    types.all isWritable = true := by
  refine List.all_eq_true.2 fun name mem => ?_
  have isName := List.all_eq_true.1 known name mem
  cases name with
  | str s => rfl
  | null | bool b | int i | float y | arr items | obj members => cases isName

theorem typeFailures_answers (usable : (declaredTypes x).all isTypeName = true)
    (written : v.isWritable = true) (admits : TypeName → Json → Bool) :
    Answers (typeFailures admits x v) := by
  rw [typeFailures, typeNames_of_canUse usable]
  exact refuteUnless_answers (isOfSomeType_answers usable admits v)
    (by rw [List.all_cons, written, isWritable_of_areTypeNames usable]; rfl)

/-- **A keyword that can use what it is given answers**, unless the value is too large for it or
there is something that it cannot show. -/
theorem Assertion.failures_answers {assertion : Assertion} (usable : assertion.canUse x = true)
    (copes : assertion.copes x v = true) (stated : x.isWritable = true)
    (shown : v.isWritable = true) (onlyFirst : Bool) :
    Answers (assertion.failures onlyFirst x v) := by
  have written : [v].all isWritable = true := by simp [shown]
  have writtenBoth : [v, x].all isWritable = true := by simp [shown, stated]
  cases assertion with
  | type => exact typeFailures_answers usable shown TypeName.admits
  | strictType => exact typeFailures_answers usable shown TypeName.admitsStrictly
  | enumeration =>
      cases x with
      | arr values => exact refuteUnless_answers (.ok _) writtenBoth
      | null | bool b | int i | float y | str s | obj members => cases usable
  | constant => exact refuteUnless_answers (.ok _) (by simp [stated])
  | minimum | maximum | exclusiveMinimum | exclusiveMaximum =>
      exact numberLimit_answers usable writtenBoth _ _
  | minLength | maxLength | minItems | maxItems | minProperties | maxProperties =>
      exact lengthLimit_answers usable written _ _ _ _ _
  | multipleOf =>
      rw [failures]
      split
      · exact .ok []
      · next number =>
          exact refuteWhen_answers (failsMultipleOf_answers usable copes (by rw [number]; rfl))
            writtenBoth
  | pattern =>
      cases x with
      | str source =>
          cases v with
          | str s => exact refuteUnless_answers (patternOccurs_answers usable s) writtenBoth
          | null | bool b | int i | float y | arr items | obj members => exact .ok []
      | null | bool b | int i | float y | arr items | obj members => cases usable
  | format => exact refuteUnless_answers (formatHolds_answers usable copes) writtenBoth
  | uniqueItems =>
      cases v with
      | arr items => exact refuteUnless_answers (.ok _) written
      | null | bool b | int i | float y | str s | obj members => exact .ok []
  | required =>
      obtain ⟨names, rfl, texts⟩ := exists_names_of_isTextList usable
      cases v with
      | obj members => exact missingMessages_answers texts onlyFirst _ members
      | null | bool b | int i | float y | str s | arr items => exact .ok []

end Keywords

/-- The declared members are a table. -/
theorem declares_of_usable {keywords : List (String × Json)}
    (usable : ∀ entry ∈ keywords, canUse entry.1 entry.2 = true) :
    ∃ declared, (Table.get? keywords "properties").getD (.obj []) = .obj declared := by
  cases stated : Table.get? keywords "properties" with
  | none => exact ⟨[], rfl⟩
  | some x =>
      have can := usable _ (Table.mem_of_get? stated)
      cases x with
      | obj declared => exact ⟨declared, rfl⟩
      | null | bool b | int i | float y | str s | arr items => cases can

/-! ## Refusals can be reported -/

/-- A violation of a schema with keywords that can use what is stated under them. -/
structure Violation.IsSound (e : Violation) : Prop where
  stated : ∀ keyword, e.keyword = some keyword → (keyword, e.keywordValue) ∈ e.schema
  usable : ∀ entry ∈ e.schema, canUse entry.1 entry.2 = true

theorem Violation.IsSound.under {e : Violation} (h : e.IsSound)
    (step schemaStep : Option Pointer.Step) : (e.under step schemaStep).IsSound := ⟨h.stated, h.usable⟩

section Reports

variable {schema members : List (String × Json)} {x : Json} {e : Violation}

theorem isPattern_of_canUse {subs : List (String × Json)}
    (usable : canUse "patternProperties" (.obj subs) = true) :
    ∀ source ∈ Table.keys subs, isPattern source = true := by
  intro source mem
  obtain ⟨entry, listed, rfl⟩ := List.mem_map.1 mem
  exact List.all_eq_true.1 usable entry listed

end Reports

end RouteContract.Schema
