import RouteContract.Proofs.Data.Result
import RouteContract.Proofs.Json.Token
import RouteContract.Proofs.Json.RoundTrip

/-!
# What is read of JSON texts

What a JSON text is read as, told without a bound on the steps: a value is a token, or a list of items
or members between brackets with blanks around them (`Reads`). The reader reads exactly this, with any
bound that is large enough for the length of the text (`reads_of_answered`, `Reads.answered`).
-/

set_option autoImplicit false

namespace RouteContract.Json.Reader

/-- What is to be read at the front of a text. -/
inductive Goal where
  | value (v : Json)
  /-- The items of an array from the first one on. -/
  | items (xs : List Json)
  /-- The members of an object from the first one on, written over those before. -/
  | members (done ms : Table Json)

/-- What is read at the front of a text, and what follows it. -/
inductive Reads : Goal → List Char → List Char → Prop
  | text {s rest : List Char} {t : String} (token : text s = .ok (t, rest)) :
      Reads (.value (.str t)) ('"' :: s) rest
  | scalar {s rest : List Char} {v : Json} (noText : s.head? ≠ some '"')
      (noArray : s.head? ≠ some '[') (noObject : s.head? ≠ some '\x7b')
      (token : scalar s = .ok (v, rest)) : Reads (.value v) s rest
  | noItems {s rest : List Char} (closes : skip s = ']' :: rest) :
      Reads (.value (.arr [])) ('[' :: s) rest
  | array {s rest : List Char} {xs : List Json} (filled : (skip s).head? ≠ some ']')
      (items : Reads (.items xs) (skip s) rest) : Reads (.value (.arr xs)) ('[' :: s) rest
  | noMembers {s rest : List Char} (closes : skip s = '}' :: rest) :
      Reads (.value (.obj [])) ('\x7b' :: s) rest
  | object {s rest : List Char} {ms : Table Json} (filled : (skip s).head? ≠ some '}')
      (members : Reads (.members [] ms) (skip s) rest) : Reads (.value (.obj ms)) ('\x7b' :: s) rest
  | lastItem {s after rest : List Char} {v : Json} (item : Reads (.value v) s after)
      (closes : skip after = ']' :: rest) : Reads (.items [v]) s rest
  | item {s after more rest : List Char} {v : Json} {xs : List Json}
      (item : Reads (.value v) s after) (goesOn : skip after = ',' :: more)
      (others : Reads (.items xs) (skip more) rest) : Reads (.items (v :: xs)) s rest
  | lastMember {s afterName afterColon after rest : List Char} {done : Table Json} {name : String}
      {v : Json} (named : text s = .ok (name, afterName)) (colon : skip afterName = ':' :: afterColon)
      (value : Reads (.value v) (skip afterColon) after) (closes : skip after = '}' :: rest) :
      Reads (.members done (Table.put done name v)) ('"' :: s) rest
  | member {s afterName afterColon after more rest : List Char} {done ms : Table Json} {name : String}
      {v : Json} (named : text s = .ok (name, afterName)) (colon : skip afterName = ':' :: afterColon)
      (value : Reads (.value v) (skip afterColon) after) (goesOn : skip after = ',' :: more)
      (others : Reads (.members (Table.put done name v) ms) (skip more) rest) :
      Reads (.members done ms) ('"' :: s) rest

/-- What the reader answers within a number of steps. -/
def Goal.Answered (fuel : Nat) (s rest : List Char) : Goal → Prop
  | .value v => Reader.value fuel s = .ok (v, rest)
  | .items xs => Reader.items fuel s = .ok (xs, rest)
  | .members done ms => Reader.members fuel done s = .ok (ms, rest)

/-! ## From the reader -/

theorem head?_ne_some {s : List Char} {c : Char} (other : ∀ rest, s ≠ c :: rest) :
    s.head? ≠ some c := by
  intro first
  obtain ⟨rest, same⟩ := List.head?_eq_some_iff.1 first
  exact other rest same

section Steps

variable {fuel : Nat}
  (below : ∀ (goal : Goal) (s rest : List Char), goal.Answered fuel s rest → Reads goal s rest)
  {s rest : List Char}

include below

theorem reads_value_succ {v : Json} (h : Reader.value (fuel + 1) s = .ok (v, rest)) :
    Reads (.value v) s rest := by
  unfold Reader.value at h
  split at h
  · obtain ⟨⟨t, after⟩, token, same⟩ := map_eq_ok_iff.1 h
    cases same
    exact .text token
  · split at h
    · next after closes =>
        cases h
        exact .noItems closes
    · next inner filled =>
        obtain ⟨⟨xs, after⟩, items, same⟩ := map_eq_ok_iff.1 h
        cases same
        exact .array (head?_ne_some filled) (below (.items xs) _ _ items)
  · split at h
    · next after closes =>
        cases h
        exact .noMembers closes
    · next inner filled =>
        obtain ⟨⟨ms, after⟩, members, same⟩ := map_eq_ok_iff.1 h
        cases same
        exact .object (head?_ne_some filled) (below (.members [] ms) _ _ members)
  · next noText noArray noObject =>
      exact .scalar (head?_ne_some noText) (head?_ne_some noArray) (head?_ne_some noObject) h

theorem reads_items_succ {xs : List Json} (h : Reader.items (fuel + 1) s = .ok (xs, rest)) :
    Reads (.items xs) s rest := by
  rw [Reader.items] at h
  split at h
  · cases h
  · next v after item =>
      have first := below (.value v) s after item
      split at h
      · next more goesOn =>
          obtain ⟨⟨others, last⟩, items, same⟩ := map_eq_ok_iff.1 h
          cases same
          exact .item first goesOn (below (.items others) _ _ items)
      · next more closes =>
          cases h
          exact .lastItem first closes
      · cases h

theorem reads_members_succ {done ms : Table Json}
    (h : Reader.members (fuel + 1) done s = .ok (ms, rest)) : Reads (.members done ms) s rest := by
  unfold Reader.members at h
  split at h
  · split at h
    · cases h
    · next name afterName named =>
        split at h
        · next afterColon colon =>
            split at h
            · cases h
            · next v after value =>
                have first := below (.value v) _ after value
                simp only at h
                split at h
                · next more goesOn =>
                    exact .member named colon first goesOn (below (.members _ ms) _ _ h)
                · next last closes =>
                    cases h
                    exact .lastMember named colon first closes
                · cases h
        · cases h
  · cases h

end Steps

/-- What the reader answers is read. -/
theorem reads_of_answered {fuel : Nat} {goal : Goal} {s rest : List Char}
    (h : goal.Answered fuel s rest) : Reads goal s rest := by
  induction fuel generalizing goal s rest with
  | zero => cases goal <;> cases h
  | succ fuel ih =>
      have below (goal : Goal) (s rest : List Char) (h : goal.Answered fuel s rest) :
          Reads goal s rest := ih h
      cases goal with
      | value => exact reads_value_succ below h
      | items => exact reads_items_succ below h
      | members => exact reads_members_succ below h

/-! ## To the reader -/

theorem skip_suffix (s : List Char) : skip s <:+ s := List.dropWhile_suffix isSpace

theorem length_skip_le (s : List Char) : (skip s).length ≤ s.length := (skip_suffix s).length_le

/-- What follows a text is what the text ends with. -/
theorem suffix_of_text {s rest : List Char} {t : String} (h : text s = .ok (t, rest)) :
    rest <:+ s := by
  obtain ⟨p, rfl, -, -⟩ := text_split h
  exact (List.suffix_cons '"' rest).trans (List.suffix_append p _)

theorem suffix_of_skip_eq {s rest : List Char} {c : Char} (h : skip s = c :: rest) : rest <:+ s :=
  ((List.suffix_cons c rest).trans (h ▸ List.suffix_refl _)).trans (skip_suffix s)

theorem length_lt_of_skip_eq {s rest : List Char} {c : Char} (h : skip s = c :: rest) :
    rest.length < s.length := by
  have length := length_skip_le s
  rw [h, List.length_cons] at length
  exact length

/-- Something is read off the front. -/
theorem Reads.suffix {goal : Goal} {s rest : List Char} (h : Reads goal s rest) :
    rest <:+ s ∧ rest.length < s.length := by
  induction h with
  | text token =>
      have inner := suffix_of_text token
      exact ⟨inner.trans (List.suffix_cons ..), Nat.lt_succ_of_le inner.length_le⟩
  | scalar _ _ _ token =>
      obtain ⟨p, rfl, some, -, -⟩ := scalar_split token
      refine ⟨List.suffix_append .., ?_⟩
      have front := List.length_pos_of_ne_nil some
      rw [List.length_append]
      omega
  | noItems closes | noMembers closes =>
      have inner := suffix_of_skip_eq closes
      exact ⟨inner.trans (List.suffix_cons ..), Nat.lt_succ_of_le inner.length_le⟩
  | array _ _ ih | object _ _ ih =>
      have inner := ih.1.trans (skip_suffix _)
      exact ⟨inner.trans (List.suffix_cons ..), Nat.lt_succ_of_le inner.length_le⟩
  | lastItem _ closes ih =>
      exact ⟨(suffix_of_skip_eq closes).trans ih.1, (length_lt_of_skip_eq closes).trans ih.2⟩
  | item _ goesOn _ ih others =>
      have tail := (others.1.trans (skip_suffix _)).trans (suffix_of_skip_eq goesOn)
      exact ⟨tail.trans ih.1, tail.length_le.trans_lt ih.2⟩
  | lastMember named colon _ closes ih =>
      have value := ((suffix_of_skip_eq closes).trans ih.1).trans (skip_suffix _)
      have inner := (value.trans (suffix_of_skip_eq colon)).trans (suffix_of_text named)
      exact ⟨inner.trans (List.suffix_cons ..), Nat.lt_succ_of_le inner.length_le⟩
  | member named colon _ goesOn _ ih others =>
      have tail := (others.1.trans (skip_suffix _)).trans (suffix_of_skip_eq goesOn)
      have value := (tail.trans ih.1).trans (skip_suffix _)
      have inner := (value.trans (suffix_of_skip_eq colon)).trans (suffix_of_text named)
      exact ⟨inner.trans (List.suffix_cons ..), Nat.lt_succ_of_le inner.length_le⟩

/-- The steps that are enough for a text. -/
def Goal.bound (length : Nat) : Goal → Nat
  | .value _ => 2 * length + 1
  | .items _ | .members _ _ => 2 * length + 2

/-- **What is read is what the reader answers** with enough steps. -/
theorem Reads.answered {goal : Goal} {s rest : List Char} (h : Reads goal s rest) {fuel : Nat}
    (enough : goal.bound s.length ≤ fuel) : goal.Answered fuel s rest := by
  induction h generalizing fuel with
  | text token =>
      obtain ⟨fuel, rfl⟩ : ∃ n, fuel = n + 1 := ⟨fuel - 1, by simp only [Goal.bound] at enough; omega⟩
      show Reader.value (fuel + 1) _ = _
      rw [Reader.value, token]
      rfl
  | @scalar s _ _ noText noArray noObject token =>
      obtain ⟨fuel, rfl⟩ : ∃ n, fuel = n + 1 := ⟨fuel - 1, by simp only [Goal.bound] at enough; omega⟩
      show Reader.value (fuel + 1) s = _
      rw [Reader.value]
      · exact token
      · exact fun _ same => noText (same ▸ rfl)
      · exact fun _ same => noArray (same ▸ rfl)
      · exact fun _ same => noObject (same ▸ rfl)
  | noItems closes | noMembers closes =>
      obtain ⟨fuel, rfl⟩ : ∃ n, fuel = n + 1 := ⟨fuel - 1, by simp only [Goal.bound] at enough; omega⟩
      show Reader.value (fuel + 1) _ = _
      rw [Reader.value, closes]
      rfl
  | @array s _ _ filled _ ih =>
      have shorter := length_skip_le s
      simp only [Goal.bound, List.length_cons] at enough ih
      obtain ⟨fuel, rfl⟩ : ∃ n, fuel = n + 1 := ⟨fuel - 1, by omega⟩
      have items : Reader.items fuel (skip s) = _ := ih (by omega)
      show Reader.value (fuel + 1) _ = _
      rw [value_arr rfl filled, items]
      rfl
  | @object s _ _ filled _ ih =>
      have shorter := length_skip_le s
      simp only [Goal.bound, List.length_cons] at enough ih
      obtain ⟨fuel, rfl⟩ : ∃ n, fuel = n + 1 := ⟨fuel - 1, by omega⟩
      have members : Reader.members fuel [] (skip s) = _ := ih (by omega)
      show Reader.value (fuel + 1) _ = _
      rw [value_obj rfl filled, members]
      rfl
  | lastItem _ closes ih =>
      simp only [Goal.bound] at enough ih
      obtain ⟨fuel, rfl⟩ : ∃ n, fuel = n + 1 := ⟨fuel - 1, by omega⟩
      exact items_close (ih (by omega)) closes
  | @item s after more _ _ _ item goesOn _ ih others =>
      have first := item.suffix.2
      have second := length_lt_of_skip_eq goesOn
      have third := length_skip_le more
      simp only [Goal.bound] at enough ih others
      obtain ⟨fuel, rfl⟩ : ∃ n, fuel = n + 1 := ⟨fuel - 1, by omega⟩
      have value : Reader.value fuel s = _ := ih (by omega)
      have items : Reader.items fuel (skip more) = _ := others (by omega)
      show Reader.items (fuel + 1) s = _
      rw [Reader.items, value]
      simp only [goesOn, items]
      rfl
  | @lastMember s afterName afterColon _ _ _ _ _ named colon _ closes ih =>
      have first := (suffix_of_text named).length_le
      have second := length_lt_of_skip_eq colon
      have third := length_skip_le afterColon
      simp only [Goal.bound, List.length_cons] at enough ih
      obtain ⟨fuel, rfl⟩ : ∃ n, fuel = n + 1 := ⟨fuel - 1, by omega⟩
      have value : Reader.value fuel (skip afterColon) = _ := ih (by omega)
      show Reader.members (fuel + 1) _ _ = _
      rw [Reader.members, named]
      simp only [colon, value, closes]
  | @member s afterName afterColon _ more _ _ _ _ _ named colon value goesOn _ ih others =>
      have first := (suffix_of_text named).length_le
      have second := length_lt_of_skip_eq colon
      have third := length_skip_le afterColon
      have fourth := value.suffix.2
      have fifth := length_lt_of_skip_eq goesOn
      have sixth := length_skip_le more
      simp only [Goal.bound, List.length_cons] at enough ih others
      obtain ⟨fuel, rfl⟩ : ∃ n, fuel = n + 1 := ⟨fuel - 1, by omega⟩
      have value : Reader.value fuel (skip afterColon) = _ := ih (by omega)
      have members : Reader.members fuel _ (skip more) = _ := others (by omega)
      show Reader.members (fuel + 1) _ _ = _
      rw [Reader.members, named]
      simp only [colon, value, goesOn, members]

/-- A text is read as a value exactly when the value is read off it and blanks are left. -/
theorem read_eq_ok_iff {s : List Char} {v : Json} :
    Json.read s = .ok v ↔ ∃ rest, Reads (.value v) (skip s) rest ∧ skip rest = [] := by
  constructor
  · intro h
    unfold Json.read at h
    split at h
    · cases h
    · next v' rest found =>
        split at h
        · next blank =>
            cases h
            have answered : (Goal.value v).Answered (2 * s.length + 2) (skip s) rest := found
            exact ⟨rest, reads_of_answered answered, List.isEmpty_iff.1 blank⟩
        · cases h
  · rintro ⟨rest, reads, blank⟩
    have shorter := length_skip_le s
    have found : Reader.value (2 * s.length + 2) (skip s) = .ok (v, rest) :=
      reads.answered (by simp only [Goal.bound]; omega)
    rw [Json.read, found]
    simp only [blank, List.isEmpty_nil, if_true]

end RouteContract.Json.Reader
