import RouteContract.Proofs.Json.Percent
import RouteContract.Proofs.Schema.Part
import RouteContract.Proofs.Text.Split

/-!
# Following pointers

A reference that was written as a pointer is followed segment by segment (`lookup_fragment`), once
the percent escapes that stand in it were decoded (`readSegments`). Each segment is a step, and
where the part that it leads to might be a subschema of its own, that part is asked for its address.
A step is quiet when this makes no difference; quiet steps only lead further into the document
(`followSegments_quiet`). Wherever a look-up ends, it ends at a part of the document
(`exists_at?_of_followSegments`).
-/

set_option autoImplicit false

namespace RouteContract.Schema

open RouteContract Pointer

/-! ## Steps -/

/-- The segments of steps, as they stand in a pointer. -/
def written (steps : List Step) : List (List Char) :=
  steps.map fun step => escape step.segment.toList

theorem written_append (first second : List Step) :
    written (first ++ second) = written first ++ written second := List.map_append

/-- The trail that steps leave. -/
def trailOf (steps : List Step) : Trail :=
  steps.map fun step =>
    match step with
    | .key name => some name
    | .index _ => none

theorem trailOf_append (first second : List Step) :
    trailOf (first ++ second) = trailOf first ++ trailOf second := List.map_append

theorem stepInto_key {members : List (String × Json)} {name : String} {part : Json}
    (found : Table.get? members name = some part) :
    stepInto (.obj members) (escape name.toList) = .ok (part, some name) := by
  rw [stepInto]
  simp only [unescape_escape, String.ofList_toList, found]

theorem toList_toString (i : Nat) : (toString i).toList = Nat.toDigits 10 i := Nat.toList_repr

theorem stepInto_index {items : List Json} {i : Nat} {part : Json} (found : items[i]? = some part)
    (short : (toString i).length ≤ Number.digitLimit) :
    stepInto (.arr items) (escape (toString i).toList) = .ok (part, none) := by
  have few : ¬ Number.digitLimit < (Nat.toDigits 10 i).length := by
    rw [← toList_toString]
    exact Nat.not_lt.2 short
  have element : elementAt? items (i : Int) = some part := by
    rw [elementAt?, if_pos (Int.natCast_nonneg i), Int.toNat_natCast, found]
  rw [toList_toString, escape_of_isDigits (Number.isDigits_toDigits i), stepInto]
  simp only [Number.readInteger_toDigits, if_neg few, element]

theorem stepInto_index_tooLong (items : List Json) {i : Nat}
    (long : Number.digitLimit < (toString i).length) :
    stepInto (.arr items) (escape (toString i).toList) = .error .badNumeral := by
  have many : Number.digitLimit < (Nat.toDigits 10 i).length := by
    rw [← toList_toString]
    exact long
  rw [toList_toString, escape_of_isDigits (Number.isDigits_toDigits i), stepInto]
  simp only [Number.readInteger_toDigits, if_pos many]

/-! ## Trails -/

section Trails

variable (isTable : Bool) (taken : Option String) (rest : Trail)

theorem namesSubschema_items : Trail.namesSubschema isTable (some "items" :: rest) = isTable := by
  unfold Trail.namesSubschema
  cases isTable <;> rfl

theorem namesSubschema_additional :
    Trail.namesSubschema isTable (some "additionalProperties" :: rest) =
      Trail.namesSubschema isTable rest := by
  conv_lhs => unfold Trail.namesSubschema
  rfl

theorem namesSubschema_properties :
    Trail.namesSubschema isTable (some "properties" :: taken :: rest) =
      Trail.namesSubschema isTable rest := by
  conv_lhs => unfold Trail.namesSubschema
  rfl

theorem namesSubschema_anyOf :
    Trail.namesSubschema isTable (some "anyOf" :: taken :: rest) =
      Trail.namesSubschema isTable rest := by
  conv_lhs => unfold Trail.namesSubschema
  rfl

end Trails

/-! ## Quiet steps -/

section Follow

variable {value part : Json} {base : String} {trail : Trail} {segment : List Char}
  {taken : Option String} {rest : List (List Char)}

/-- Where a step leads to no address counts. -/
def Quiet (trail : Trail) (part : Json) : Prop :=
  Trail.namesSubschema (isTable part) trail = true → ownAddress? part = .ok none

theorem followSegments_quiet (step : stepInto value segment = .ok (part, taken))
    (quiet : Quiet (trail ++ [taken]) part) :
    followSegments value base trail (segment :: rest) =
      followSegments part base (trail ++ [taken]) rest := by
  rw [followSegments]
  simp only [step]
  split
  · next names => rw [quiet names]
  · rfl

theorem followSegments_fault {fault : Fault} (step : stepInto value segment = .error fault) :
    followSegments value base trail (segment :: rest) = .error fault := by
  rw [followSegments, step]

theorem followSegments_noAddress {fault : Fault} (step : stepInto value segment = .ok (part, taken))
    (names : Trail.namesSubschema (isTable part) (trail ++ [taken]) = true)
    (address : ownAddress? part = .error fault) :
    followSegments value base trail (segment :: rest) = .error fault := by
  rw [followSegments]
  simp only [step, names, if_true, address]

end Follow

/-! ## References -/

/-- The segments that are read from a reference that was written from segments: escapes are decoded,
and a slash that comes of it cuts a segment. -/
def readSegments (segments : List String) : List (List Char) :=
  segments.flatMap fun s => Text.splitAt '/' (percentDecode (escape s.toList))

theorem splitAt_percentDecode (first : String) (rest : List String) :
    Text.splitAt '/' (percentDecode ((renderChars (first :: rest)).drop 1)) =
      readSegments (first :: rest) := by
  have front (s : String) (more : List String) :
      (renderChars (s :: more)).drop 1 = escape s.toList ++ renderChars more := rfl
  induction rest generalizing first with
  | nil =>
      rw [front, renderChars, List.flatMap_nil, List.append_nil, readSegments,
        List.flatMap_singleton]
  | cons next more ih =>
      have slash : renderChars (next :: more) = '/' :: (renderChars (next :: more)).drop 1 := rfl
      rw [front, slash, percentDecode_append_slash, Text.splitAt_append_separator, ih]
      rfl

/-- **A reference inside a document is followed from the top of it.** -/
theorem lookup_fragment (scope : Scope) (segments : List String) :
    scope.lookup scope.address (fragment segments) =
      followSegments scope.root scope.address [] (readSegments segments) := by
  have document : scope.document scope.address = .ok scope.root := if_pos rfl
  have chars : (fragment segments).toList = '#' :: renderChars segments := String.toList_ofList
  rw [Scope.lookup]
  simp only [chars]
  cases segments with
  | nil =>
      rw [renderChars, List.flatMap_nil]
      simp only [document]
      rfl
  | cons first rest =>
      have slash : renderChars (first :: rest) = '/' :: (renderChars (first :: rest)).drop 1 := rfl
      have read := splitAt_percentDecode first rest
      rw [slash]
      simp only [document, followPointer]
      rw [List.drop_one, List.tail_cons, read]

/-- Segments without escapes are read as they were written. -/
theorem readSegments_of_plain {segments : List String}
    (plain : ∀ segment ∈ segments, hasEscape segment.toList = false) :
    readSegments segments = segments.map fun s => escape s.toList := by
  induction segments with
  | nil => rfl
  | cons first rest ih =>
      obtain ⟨here, later⟩ := List.forall_mem_cons.1 plain
      have read : percentDecode (escape first.toList) = escape first.toList :=
        percentDecode_of_hasEscape_eq_false ((hasEscape_escape _).trans here)
      rw [readSegments, List.flatMap_cons, ← readSegments, ih later, read,
        Text.splitAt_of_not_mem (slash_not_mem_escape _)]
      rfl

/-- Segments are read as at least as many. -/
theorem length_le_readSegments (segments : List String) :
    segments.length ≤ (readSegments segments).length := by
  induction segments with
  | nil => exact Nat.le_refl _
  | cons first rest ih =>
      have some := List.length_pos_of_ne_nil
        (Text.splitAt_ne_nil '/' (percentDecode (escape first.toList)))
      rw [readSegments, List.flatMap_cons, ← readSegments, List.length_append, List.length_cons]
      omega

/-- Segments that are read as so many are read one by one. -/
theorem readSegments_of_length_eq {segments : List String}
    (same : (readSegments segments).length = segments.length) :
    readSegments segments = segments.map fun s => percentDecode (escape s.toList) := by
  induction segments with
  | nil => rfl
  | cons first rest ih =>
      rw [readSegments, List.flatMap_cons, ← readSegments] at same ⊢
      have some := List.length_pos_of_ne_nil
        (Text.splitAt_ne_nil '/' (percentDecode (escape first.toList)))
      have least := length_le_readSegments rest
      rw [List.length_append, List.length_cons] at same
      obtain ⟨part, cut⟩ := List.length_eq_one_iff.1
        (show (Text.splitAt '/' (percentDecode (escape first.toList))).length = 1 by omega)
      rw [ih (by omega), cut, Text.eq_of_splitAt_eq_singleton cut]
      rfl

/-! ## Places that are reached -/

/-- **What is followed to is a part of the document**, at a place whose keys the segments name. -/
theorem exists_at?_of_followSegments {value : Json} {base base' : String} {trail : Trail}
    {segments : List (List Char)} {members : List (String × Json)}
    (followed : followSegments value base trail segments = .ok (.obj members, base')) :
    ∃ steps, value.at? steps = some (.obj members) ∧ List.Forall₂ Names segments steps := by
  induction segments generalizing value base trail with
  | nil =>
      cases followed
      exact ⟨[], rfl, .nil⟩
  | cons segment rest ih =>
      obtain ⟨part, taken, base, trail, step, followed⟩ := exists_stepInto_of_followSegments followed
      obtain ⟨steps, below, named⟩ := ih followed
      rcases stepInto_cases step with ⟨s, rfl⟩ | ⟨first, child, names⟩
      · cases steps with
        | nil => cases below
        | cons step steps =>
            rw [Json.at?_cons, Json.child?_str] at below
            cases below
      · exact ⟨first :: steps, by rw [Json.at?_cons, child, Option.bind_some, below],
          .cons names named⟩

end RouteContract.Schema
