import RouteContract.Proofs.Json.Place
import RouteContract.Proofs.Pointer
import RouteContract.Proofs.Text.Split

/-!
# Following pointers

A pointer is read as a list of segments (`readPointer?`), and segments are followed from the top of
a value: through a key of an object, or through a position of an array in decimal digits without
leading zeros. Reading undoes writing, also where a pointer goes on after what was written
(`readPointer?_renderChars_append`), so a reference whose pointer is put behind another one is
followed from where that one leads (`resolve?_fragment_append`).
-/

set_option autoImplicit false

namespace RouteContract

open Pointer

/-! ## Reading -/

/-- The segments of a pointer. A pointer that is not empty begins with a slash. -/
def readPointer? : List Char → Option (List String)
  | [] => some []
  | '/' :: rest => some ((Text.splitAt '/' rest).map fun s => String.ofList (unescape s))
  | _ => none

theorem readPointer?_escape_append {segment : String} {rest : List Char} {segments : List String}
    (h : readPointer? rest = some segments) :
    readPointer? ('/' :: (escape segment.toList ++ rest)) = some (segment :: segments) := by
  have opened (tail : List Char) : readPointer? ('/' :: tail) =
      some ((Text.splitAt '/' tail).map fun s => String.ofList (unescape s)) := rfl
  obtain ⟨more, cut, rfl⟩ : ∃ more, Text.splitAt '/' rest = [] :: more ∧
      segments = more.map fun s => String.ofList (unescape s) := by
    rw [readPointer?.eq_def] at h
    split at h
    · cases h
      exact ⟨[], rfl, rfl⟩
    · cases h
      exact ⟨_, rfl, rfl⟩
    · cases h
  rw [opened, Text.splitAt_append (slash_not_mem_escape _) cut, List.append_nil, List.map_cons,
    unescape_escape, String.ofList_toList]

/-- **Reading undoes writing**, and goes on with what follows. -/
theorem readPointer?_renderChars_append (written : List String) {rest : List Char}
    {segments : List String} (h : readPointer? rest = some segments) :
    readPointer? (renderChars written ++ rest) = some (written ++ segments) := by
  induction written with
  | nil => exact h
  | cons segment more ih =>
      rw [renderChars, List.flatMap_cons, List.cons_append, List.cons_append, List.append_assoc]
      exact readPointer?_escape_append ih

theorem readPointer?_renderChars (written : List String) :
    readPointer? (renderChars written) = some written := by
  have read := @readPointer?_renderChars_append written [] [] rfl
  rwa [List.append_nil, List.append_nil] at read

theorem toList_fragment (written : List String) :
    (fragment written).toList = '#' :: renderChars written := by
  rw [fragment, String.toList_ofList]

/-- A pointer goes on behind another one. -/
theorem fragment_append (written more : List String) :
    fragment (written ++ more) = fragment written ++ String.ofList (renderChars more) := by
  rw [← String.toList_inj, String.toList_append, toList_fragment, toList_fragment,
    String.toList_ofList, renderChars, List.flatMap_append]
  rfl

theorem render_injective {first second : List String} (same : render first = render second) :
    first = second := by
  have chars : renderChars first = renderChars second := String.ofList_injective same
  have read := readPointer?_renderChars first
  rw [chars, readPointer?_renderChars] at read
  exact (Option.some.inj read).symm

theorem fragment_injective {first second : List String} (same : fragment first = fragment second) :
    first = second := by
  have chars := congrArg String.toList same
  rw [toList_fragment, toList_fragment, List.cons.injEq] at chars
  exact render_injective (congrArg String.ofList chars.2)

/-! ## Following -/

/-- The position that a segment is the decimal text of. -/
def position? (segment : String) : Option Nat :=
  let position := Number.digitsValue segment.toList
  if toString position = segment then some position else none

theorem position?_toString (i : Nat) : position? (toString i) = some i := by
  have value : Number.digitsValue (toString i).toList = i := by
    rw [Nat.toString_eq_repr, Nat.toList_repr, Number.digitsValue_toDigits]
  rw [position?, value]
  exact if_pos rfl

theorem position?_eq_some_iff {segment : String} {i : Nat} :
    position? segment = some i ↔ segment = toString i := by
  constructor
  · intro h
    rw [position?] at h
    split at h
    · next same =>
        cases h
        exact same.symm
    · cases h
  · rintro rfl
    exact position?_toString i

namespace Json

/-- The part of a value that one segment leads to. -/
def part? : Json → String → Option Json
  | .obj members, segment => Table.get? members segment
  | .arr items, segment => (position? segment).bind (items[·]?)
  | _, _ => none

/-- The part of a value that segments lead to, one after the other. -/
def follow? : Json → List String → Option Json
  | v, [] => some v
  | v, segment :: rest => (v.part? segment).bind (follow? · rest)

@[simp] theorem follow?_nil (v : Json) : v.follow? [] = some v := by rw [follow?]

theorem follow?_cons (v : Json) (segment : String) (rest : List String) :
    v.follow? (segment :: rest) = (v.part? segment).bind (·.follow? rest) := by rw [follow?]

theorem follow?_append (v : Json) (first second : List String) :
    v.follow? (first ++ second) = (v.follow? first).bind (·.follow? second) := by
  induction first generalizing v with
  | nil => rw [List.nil_append, follow?_nil, Option.bind_some]
  | cons segment rest ih =>
      rw [List.cons_append, follow?_cons, follow?_cons]
      cases v.part? segment with
      | none => rfl
      | some part => exact ih part

@[simp] theorem part?_obj (members : List (String × Json)) (segment : String) :
    (Json.obj members).part? segment = Table.get? members segment := rfl

@[simp] theorem part?_arr (items : List Json) (i : Nat) :
    (Json.arr items).part? (toString i) = items[i]? := by
  rw [part?, position?_toString, Option.bind_some]

/-- What segments lead to is a part that weighs less. -/
theorem weight_lt_of_part? {v part : Json} {segment : String} (h : v.part? segment = some part) :
    part.weight < v.weight := by
  cases v with
  | null | bool b | int i | float x | str s => cases h
  | obj members =>
      have lt := weight_lt_weightMembers (Table.mem_of_get? h)
      rw [weight.eq_def (.obj members)]
      simp only at lt ⊢
      omega
  | arr items =>
      obtain ⟨i, -, found⟩ := Option.bind_eq_some_iff.1 h
      have le := weight_le_weightItems (List.mem_of_getElem? found)
      rw [weight.eq_def (.arr items)]
      simp only
      omega

theorem weight_le_of_follow? {v n : Json} {segments : List String}
    (h : v.follow? segments = some n) : n.weight ≤ v.weight := by
  induction segments generalizing v with
  | nil =>
      cases h
      exact Nat.le_refl _
  | cons segment rest ih =>
      rw [follow?_cons] at h
      obtain ⟨part, taken, further⟩ := Option.bind_eq_some_iff.1 h
      exact Nat.le_of_lt (Nat.lt_of_le_of_lt (ih further) (weight_lt_of_part? taken))

/-- No way but the empty one leads from a value to itself. -/
theorem eq_nil_of_follow?_self {v : Json} {segments : List String}
    (h : v.follow? segments = some v) : segments = [] := by
  cases segments with
  | nil => rfl
  | cons segment rest =>
      rw [follow?_cons] at h
      obtain ⟨part, taken, further⟩ := Option.bind_eq_some_iff.1 h
      have below := Nat.lt_of_le_of_lt (weight_le_of_follow? further) (weight_lt_of_part? taken)
      exact absurd below (Nat.lt_irrefl _)

/-! ## Steps and segments -/

theorem part?_of_child? {v part : Json} {step : Step} (h : v.child? step = some part) :
    v.part? step.segment = some part := by
  cases v with
  | null | bool b | int i | float x | str s => cases step <;> cases h
  | obj members =>
      cases step with
      | key name => exact h
      | index i => cases h
  | arr items =>
      cases step with
      | key name => cases h
      | index i => exact (part?_arr items i).trans h

/-- What steps lead to, their segments lead to. -/
theorem follow?_of_at? {v n : Json} {steps : List Step} (h : v.at? steps = some n) :
    v.follow? (steps.map Step.segment) = some n := by
  induction steps generalizing v with
  | nil => exact h
  | cons step rest ih =>
      rw [at?_cons] at h
      obtain ⟨part, taken, further⟩ := Option.bind_eq_some_iff.1 h
      rw [List.map_cons, follow?_cons, part?_of_child? taken, Option.bind_some, ih further]

theorem exists_child?_of_part? {v part : Json} {segment : String}
    (h : v.part? segment = some part) : ∃ step, step.segment = segment ∧
      v.child? step = some part := by
  cases v with
  | null | bool b | int i | float x | str s => cases h
  | obj members => exact ⟨.key segment, rfl, h⟩
  | arr items =>
      obtain ⟨i, read, found⟩ := Option.bind_eq_some_iff.1 h
      exact ⟨.index i, (position?_eq_some_iff.1 read).symm, found⟩

/-- What segments lead to, some steps with these segments lead to. -/
theorem exists_at?_of_follow? {v n : Json} {segments : List String}
    (h : v.follow? segments = some n) :
    ∃ steps, steps.map Step.segment = segments ∧ v.at? steps = some n := by
  induction segments generalizing v with
  | nil => exact ⟨[], rfl, h⟩
  | cons segment rest ih =>
      rw [follow?_cons] at h
      obtain ⟨part, taken, further⟩ := Option.bind_eq_some_iff.1 h
      obtain ⟨step, same, child⟩ := exists_child?_of_part? taken
      obtain ⟨steps, sameRest, found⟩ := ih further
      refine ⟨step :: steps, by rw [List.map_cons, same, sameRest], ?_⟩
      rw [at?_cons, child, Option.bind_some, found]

/-! ## References -/

/-- The value that a local reference leads to: its pointer is followed from the top. -/
def resolve? (document : Json) (reference : String) : Option Json :=
  match reference.toList with
  | '#' :: pointer => (readPointer? pointer).bind document.follow?
  | _ => none

theorem resolve?_fragment (document : Json) (written : List String) :
    document.resolve? (fragment written) = document.follow? written := by
  rw [resolve?, toList_fragment]
  simp only [readPointer?_renderChars, Option.bind_some]

/-- **A reference behind a written pointer** is followed from where that pointer leads. -/
theorem resolve?_fragment_append (document : Json) (written : List String) {pointer : List Char}
    {segments : List String} (read : readPointer? pointer = some segments) :
    document.resolve? (fragment written ++ String.ofList pointer) =
      document.follow? (written ++ segments) := by
  have chars : (fragment written ++ String.ofList pointer).toList =
      '#' :: (renderChars written ++ pointer) := by
    rw [String.toList_append, toList_fragment, String.toList_ofList]
    rfl
  rw [resolve?, chars]
  simp only [readPointer?_renderChars_append written read, Option.bind_some]

end Json

end RouteContract
